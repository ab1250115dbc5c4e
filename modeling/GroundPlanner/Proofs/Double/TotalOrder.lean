import GroundPlanner.Search.TotalOrder
import Mathlib.Algebra.Group.Nat.Defs
/-!
# The total order on patterns

`totalLt` is the total order of doubles on all 64-bit patterns, by sign and magnitude.  `orderKey`, by which the open
list compares priorities and estimates, is an embedding of it (`orderKey_lt_iff`).
-/
namespace GroundPlanner
namespace Double

/-- Whether the sign bit of a pattern is set. -/
def negative (b : UInt64) : Bool :=
  b.toNat.testBit 63

/-- A pattern without its sign bit. -/
def unsigned (b : UInt64) : Nat :=
  b.toNat % 2 ^ 63

/-- **The total order of doubles**: negative patterns before the others, these by falling and those by rising
magnitude. -/
def totalLt (a b : UInt64) : Bool :=
  match negative a, negative b with
  | true, false => true
  | false, true => false
  | false, false => unsigned a < unsigned b
  | true, true => unsigned b < unsigned a

theorem negative_iff {b : UInt64} : negative b = true ↔ 2 ^ 63 ≤ b.toNat := by
  have hb := b.toNat_lt
  rw [negative, Nat.testBit_eq_decide_div_mod_eq, decide_eq_true_eq]
  omega

theorem unsigned_lt (b : UInt64) : unsigned b < 2 ^ 63 :=
  Nat.mod_lt _ (by decide)

theorem toNat_orderKey_eq (b : UInt64) :
    (orderKey b).toNat = if negative b then 2 ^ 63 - 1 - unsigned b else 2 ^ 63 + unsigned b := by
  have hb := b.toNat_lt
  rw [toNat_orderKey, unsigned]
  by_cases h : negative b = true
  · rw [if_pos h]
    rw [negative_iff] at h
    rw [if_neg (by omega)]
    omega
  · rw [if_neg h]
    rw [negative_iff] at h
    rw [if_pos (by omega)]
    omega

/-- **Places in the queue compare like patterns in the total order.** -/
theorem orderKey_lt_iff {a b : UInt64} : orderKey a < orderKey b ↔ totalLt a b = true := by
  have ha := unsigned_lt a
  have hb := unsigned_lt b
  rw [UInt64.lt_iff_toNat_lt, toNat_orderKey_eq, toNat_orderKey_eq]
  unfold totalLt
  cases negative a <;> cases negative b <;> simp <;> omega

end Double
end GroundPlanner
