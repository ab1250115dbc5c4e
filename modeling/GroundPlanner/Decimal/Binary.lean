/-!
# The value of a double

A double is a NaN, an infinity, or `±mantissa · 2^exponent`.  `Binary.ofBits` reads the value off the
64-bit pattern; everything that prints a double starts from it, in exact arithmetic.
-/
namespace GroundPlanner
namespace Decimal

inductive Binary where
  | nan
  | infinite (negative : Bool)
  | finite (negative : Bool) (mantissa : Nat) (exponent : Int)
deriving DecidableEq, Repr

/-- The first bit of a mantissa that has all its bits; it is not stored. -/
def Binary.leadingBit : Nat :=
  0x10000000000000

/-- The value of a 64-bit pattern. -/
def Binary.ofBits (bits : Nat) : Binary :=
  let negative := bits.testBit 63
  let biased : Nat := bits >>> 52 % 2048
  let fraction := bits % leadingBit
  if biased = 2047 then
    if fraction = 0 then .infinite negative else .nan
  else if biased = 0 then .finite negative fraction (-1074)
  else .finite negative (leadingBit + fraction) (Int.ofNat biased - 1075)

def Binary.ofFloat (x : Float) : Binary :=
  .ofBits x.toBits.toNat

def powerOfTen (n : Nat) : Nat :=
  Nat.pow 10 n

/-- A sign before the digits of a magnitude. -/
def signed (negative : Bool) (s : String) : String :=
  if negative then "-" ++ s else s

/-- The texts of the doubles that are no numbers. -/
def special : Binary → Option String
  | .nan => some "NaN"
  | .infinite negative => some (signed negative "inf")
  | .finite .. => none

theorem ofBits_zero : Binary.ofBits 0 = .finite false 0 (-1074) := by decide

theorem ofBits_one : Binary.ofBits 0x3ff0000000000000 = .finite false Binary.leadingBit (-52) := by decide

end Decimal
end GroundPlanner
