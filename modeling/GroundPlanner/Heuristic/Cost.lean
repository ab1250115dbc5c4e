import GroundPlanner.Rounding
/-!
# Relaxed costs

A cost is a whole number or infinity.  Costs are kept at the precision of a double: below `exactBound` sums are
exact (`add_eq_of_lt`), above it they are rounded to 53 significant bits, and what would round to `2^1024`
or more is infinite.
-/
namespace GroundPlanner

inductive Cost where
  | finite (n : Nat)
  | infinite
deriving DecidableEq, Repr

namespace Cost

def zero : Cost :=
  .finite 0

def isFinite : Cost → Bool
  | finite _ => true
  | infinite => false

/-- Every number below this has at most 53 significant bits. -/
def exactBound : Nat :=
  0x20000000000000

/-- The cost nearest to `n` among those with 53 significant bits. -/
def rounded (n : Nat) : Cost :=
  if n < exactBound then .finite n
  else
    let unit := 1 <<< (n.log2 - 52)
    let r := roundQuotient n unit * unit
    if r < 1 <<< 1024 then .finite r else .infinite

def add : Cost → Cost → Cost
  | finite a, finite b => rounded (a + b)
  | _, _ => infinite

def succ (c : Cost) : Cost :=
  c.add (.finite 1)

def max : Cost → Cost → Cost
  | finite a, finite b => .finite (Nat.max a b)
  | _, _ => infinite

def lt : Cost → Cost → Bool
  | finite a, finite b => a < b
  | finite _, infinite => true
  | infinite, _ => false

/-- The double of the same value. -/
def toFloat : Cost → Float
  | finite n => Float.ofNat n
  | infinite => 1.0 / 0.0

theorem rounded_of_lt {n : Nat} (h : n < exactBound) : rounded n = .finite n :=
  if_pos h

theorem add_eq_of_lt {a b : Nat} (h : a + b < exactBound) : add (.finite a) (.finite b) = .finite (a + b) :=
  rounded_of_lt h

theorem succ_eq_of_lt {a : Nat} (h : a + 1 < exactBound) : succ (.finite a) = .finite (a + 1) :=
  rounded_of_lt h

end Cost
end GroundPlanner
