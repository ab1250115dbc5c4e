import GroundPlanner.Decimal.Binary
import GroundPlanner.Text.Digits
/-!
# Reading decimal numbers

`Decimal.parse?` reads a sign, digits with or without a point, and an exponent, or one of the words for
infinity and "not a number" in any case.  The result is the double nearest to the number that was written,
an even significand winning a tie; so a number beyond the greatest double reads as infinity.
-/
namespace GroundPlanner
namespace Decimal

/-- The double nearest to m · 10^e.

A number of `n` digits lies between `10^(n-1)` and `10^n`, so beyond the two bounds below it rounds to
infinity and to zero without a look at its digits. -/
def ofDigits (m : Nat) (e : Int) : Float :=
  let magnitude := (Nat.toDigits 10 m).length + e
  if m = 0 ∨ magnitude < -340 then 0.0
  else if 320 < magnitude then 1.0 / 0.0
  else Float.ofScientific m (decide (e < 0)) e.natAbs

/-- The digits after the mark of an exponent, with their sign. -/
def exponent? : List Char → Option Int
  | [] => some 0
  | mark :: cs =>
    if mark != 'e' && mark != 'E' then none
    else match cs with
      | '-' :: ds => (Text.digits? 10 ds).map (fun n => -(n : Int))
      | '+' :: ds => (Text.digits? 10 ds).map Int.ofNat
      | ds => (Text.digits? 10 ds).map Int.ofNat

/-- A number without a sign. -/
def unsigned? (cs : List Char) : Option Float :=
  let word := cs.map Char.toLower
  if word = "inf".toList ∨ word = "infinity".toList then some (1.0 / 0.0)
  else if word = "nan".toList then some (Float.ofBits 0x7ff8000000000000)
  else
    let whole := cs.takeWhile Char.isDigit
    let rest := cs.dropWhile Char.isDigit
    let (fraction, rest) := match rest with
      | '.' :: r => (r.takeWhile Char.isDigit, r.dropWhile Char.isDigit)
      | r => ([], r)
    if whole.isEmpty && fraction.isEmpty then none
    else (exponent? rest).map (fun e =>
      ofDigits (Text.valueOf 10 (whole ++ fraction)) (e - fraction.length))

def parseChars? : List Char → Option Float
  | '-' :: cs => (unsigned? cs).map (fun x => -x)
  | '+' :: cs => unsigned? cs
  | cs => unsigned? cs

def parse? (s : String) : Option Float :=
  parseChars? s.toList

end Decimal
end GroundPlanner
