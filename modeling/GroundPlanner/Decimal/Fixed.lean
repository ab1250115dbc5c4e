import GroundPlanner.Decimal.Binary
import GroundPlanner.Rounding
/-!
# Decimals with a fixed number of places

`fixed p x` writes the exact value of a double with `p` places; a value halfway between two such decimals
goes to the one whose last digit is even.
-/
namespace GroundPlanner
namespace Decimal

/-- `n / 10^places` with its point. -/
def placed (places n : Nat) : String :=
  let whole := Nat.toDigits 10 (n / powerOfTen places)
  if places = 0 then String.ofList whole
  else
    let fraction := Nat.toDigits 10 (n % powerOfTen places)
    String.ofList (whole ++ '.' :: (List.replicate (places - fraction.length) '0' ++ fraction))

def fixed (places : Nat) (x : Float) : String :=
  match Binary.ofFloat x with
  | .finite negative m e =>
    signed negative (placed places (roundQuotient ((m * powerOfTen places) <<< e.toNat) (1 <<< (-e).toNat)))
  | b => (special b).getD ""

end Decimal
end GroundPlanner
