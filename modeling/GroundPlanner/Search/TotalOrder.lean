/-!
# The total order of doubles

The comparison operators of doubles are partial: a NaN is neither below nor above anything.  A priority
queue needs a total order.  Read as a sign and a magnitude, the 64-bit patterns have one: negative numbers
before positive ones, minus zero before zero, and the NaNs outside the infinities by sign.  `orderKey` maps
a pattern to a word so that the order of words is that order.
-/
namespace GroundPlanner

/-- The place of a 64-bit pattern in the total order. -/
def orderKey (bits : UInt64) : UInt64 :=
  if bits < 0x8000000000000000 then bits + 0x8000000000000000 else ~~~bits

theorem toNat_orderKey (bits : UInt64) : (orderKey bits).toNat =
    if bits.toNat < 0x8000000000000000 then bits.toNat + 0x8000000000000000
    else 0xffffffffffffffff - bits.toNat := by
  have hb := bits.toNat_lt
  by_cases h : bits.toNat < 0x8000000000000000
  · have hlt : bits < 0x8000000000000000 := by simpa [UInt64.lt_iff_toNat_lt] using h
    simp only [orderKey, hlt, if_true, h, UInt64.toNat_add]
    have hc : (0x8000000000000000 : UInt64).toNat = 0x8000000000000000 := rfl
    omega
  · have hlt : ¬ bits < 0x8000000000000000 := by simpa [UInt64.lt_iff_toNat_lt] using h
    rw [orderKey, if_neg hlt, if_neg h]
    exact UInt64.toNat_not bits

/-- Different patterns have different places. -/
theorem orderKey_injective {a b : UInt64} (h : orderKey a = orderKey b) : a = b := by
  have ha := a.toNat_lt
  have hb := b.toNat_lt
  have hk : (orderKey a).toNat = (orderKey b).toNat := by rw [h]
  rw [toNat_orderKey, toNat_orderKey] at hk
  apply UInt64.toNat_inj.1
  split at hk <;> split at hk <;> omega

end GroundPlanner
