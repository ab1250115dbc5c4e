/-!
# Digits in a base

The value of a row of digits, `0` to `9` and then the letters `a` to `z` in either case.
-/
namespace GroundPlanner
namespace Text

def digitValue (c : Char) : Nat :=
  if c.isDigit then c.toNat - '0'.toNat
  else if c.isLower then c.toNat - 'a'.toNat + 10
  else if c.isUpper then c.toNat - 'A'.toNat + 10
  else 36

/-- Whether the character is a digit in the base. -/
def isDigitIn (base : Nat) (c : Char) : Bool :=
  digitValue c < base

def valueOf (base : Nat) (ds : List Char) : Nat :=
  ds.foldl (fun n c => n * base + digitValue c) 0

/-- The value of a row of one or more digits, and of nothing else. -/
def digits? (base : Nat) (ds : List Char) : Option Nat :=
  if ds.isEmpty || !ds.all (isDigitIn base) then none else some (valueOf base ds)

end Text
end GroundPlanner
