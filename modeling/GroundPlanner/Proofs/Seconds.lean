import GroundPlanner.Duration
import GroundPlanner.Proofs.Double.Arithmetic
import Mathlib.Data.Nat.Digits.Lemmas
/-!
# Seconds in decimals

The decimal of a greater double is not shorter (`Decimal.length_fixed_mono`), and the double of a longer duration is not
smaller (`Duration.pattern_toFloat_mono`), so how many characters its seconds take depends on two durations next to each
other.
-/
namespace GroundPlanner

open Double

namespace Decimal

variable {x y : Float} {b p n k : Nat}

/-- **The value of a pattern between zero and infinity**, with an exponent that counts from the last place of all. -/
theorem exists_ofBits (h : b < infinityBits) :
    ∃ m j : Nat, Binary.ofBits b = .finite false m ((j : Int) - 1074) ∧ magnitude b = m * 2 ^ j := by
  have hsign : b.testBit 63 = false := Nat.testBit_lt_two_pow (by unfold infinityBits at h; omega)
  have hbiased : b >>> 52 % 2048 = b / 2 ^ 52 := by
    rw [Nat.shiftRight_eq_div_pow]
    unfold infinityBits at h
    omega
  have hfinite : b / 2 ^ 52 ≠ 2047 := by
    unfold infinityBits at h
    omega
  unfold Binary.ofBits
  simp only [hsign, hbiased, if_neg hfinite]
  split
  · rename_i hsub
    have hlt : b < 2 ^ 52 := by omega
    exact ⟨b % Binary.leadingBit, 0, rfl, by
      rw [magnitude_of_lt hlt, Nat.pow_zero, Nat.mul_one]
      exact (Nat.mod_eq_of_lt hlt).symm⟩
  · rename_i hnormal
    refine ⟨Binary.leadingBit + b % Binary.leadingBit, b / 2 ^ 52 - 1, ?_, ?_⟩
    · congr 1
      change ((b / 2 ^ 52 : Nat) : Int) - 1075 = ((b / 2 ^ 52 - 1 : Nat) : Int) - 1074
      omega
    · rw [magnitude, if_neg (by omega)]
      rfl

/-- **A decimal is one rounded quotient of the units.** -/
theorem fixed_eq (p : Nat) (h : pattern x < infinityBits) :
    fixed p x = placed p (roundQuotient (magnitude (pattern x) * powerOfTen p) unit) := by
  obtain ⟨m, j, hx, hmag⟩ := exists_ofBits h
  have hnum : (m * powerOfTen p) <<< ((j : Int) - 1074).toNat * 2 ^ min j onePlace = m * 2 ^ j * powerOfTen p := by
    rw [Nat.shiftLeft_eq, Nat.mul_assoc, ← Nat.pow_add, Nat.mul_right_comm,
      show ((j : Int) - 1074).toNat + min j onePlace = j by unfold onePlace; omega]
  have hden : 1 <<< (-((j : Int) - 1074)).toNat * 2 ^ min j onePlace = unit := by
    rw [Nat.shiftLeft_eq, Nat.one_mul, ← Nat.pow_add, unit,
      show (-((j : Int) - 1074)).toNat + min j onePlace = onePlace by unfold onePlace; omega]
  have hofFloat : Binary.ofFloat x = .finite false m ((j : Int) - 1074) := hx
  unfold fixed
  rw [hofFloat, hmag, ← hnum, ← hden, roundQuotient_mul_right _ _ (Nat.two_pow_pos _)]
  rfl

theorem length_placed (hp : 0 < p) (n : Nat) :
    (placed p n).length = (Nat.toDigits 10 (n / powerOfTen p)).length + 1 + p := by
  have hfraction : (Nat.toDigits 10 (n % powerOfTen p)).length ≤ p :=
    (Nat.length_toDigits_le_iff (by decide) hp).2 (Nat.mod_lt _ (Nat.pow_pos (by decide)))
  unfold placed
  simp only [if_neg (Nat.ne_of_gt hp), String.length_ofList, List.length_append, List.length_cons,
    List.length_replicate]
  omega

theorem length_toDigits_mono (h : n ≤ k) : (Nat.toDigits 10 n).length ≤ (Nat.toDigits 10 k).length := by
  have hpos : 0 < (Nat.toDigits 10 k).length := Nat.length_toDigits_pos
  rw [Nat.length_toDigits_le_iff (by decide) hpos]
  exact Nat.lt_of_le_of_lt h ((Nat.length_toDigits_le_iff (by decide) hpos).1 (Nat.le_refl _))

/-- **The decimal of a greater number is not shorter.** -/
theorem length_fixed_mono (hp : 0 < p) (h : pattern x ≤ pattern y) (hy : pattern y < infinityBits) :
    (fixed p x).length ≤ (fixed p y).length := by
  have hle := roundQuotient_mono unit (Nat.mul_le_mul_right (powerOfTen p) (magnitude_mono h))
  rw [fixed_eq p (Nat.lt_of_le_of_lt h hy), fixed_eq p hy, length_placed hp, length_placed hp]
  exact Nat.add_le_add_right (Nat.add_le_add_right (length_toDigits_mono (Nat.div_le_div_right hle)) 1) p

end Decimal

namespace Duration

variable {d e : Duration}

theorem float_perSecond : (1000000000.0 : Float) = Float.ofNat perSecond := by
  decide +kernel

theorem subsecond_lt (d : Duration) : d.subsecond < perSecond :=
  Nat.mod_lt _ (by decide)

/-- The part beyond the whole seconds is a quotient that is rounded once. -/
theorem pattern_fraction {n : Nat} (h : n ≤ perSecond) :
    pattern (Float.ofNat n / 1000000000.0) = encodeQuotient (n * unit) perSecond := by
  rw [float_perSecond]
  exact pattern_ofNat_div (by decide) (Nat.le_trans h (by decide)) (by decide)

theorem nonneg_fraction (d : Duration) : Nonneg (Float.ofNat d.subsecond / 1000000000.0) := by
  unfold Nonneg
  rw [pattern_fraction (Nat.le_of_lt d.subsecond_lt)]
  exact encodeQuotient_le _ _

/-- A duration is not shorter than its whole seconds. -/
theorem pattern_seconds_le (d : Duration) : pattern (Float.ofNat d.seconds) ≤ pattern d.toFloat := by
  have hzero : pattern (Float.ofNat d.seconds + Float.ofNat 0) = pattern (Float.ofNat d.seconds) := by
    rw [pattern_add (nonneg_ofNat _) (nonneg_ofNat 0), pattern_ofNat 0, Nat.zero_mul,
      show magnitude (encode 0) = 0 by decide, Nat.add_zero, encode_magnitude (nonneg_ofNat _)]
  rw [← hzero]
  refine pattern_add_le (nonneg_ofNat _) (nonneg_ofNat 0) d.nonneg_fraction ?_
  rw [pattern_ofNat 0, Nat.zero_mul]
  exact Nat.zero_le _

/-- A duration is at most as long as its whole seconds and one second. -/
theorem pattern_toFloat_le (d : Duration) : pattern d.toFloat ≤ pattern (Float.ofNat d.seconds + Float.ofNat 1) := by
  refine pattern_add_le (nonneg_ofNat _) d.nonneg_fraction (nonneg_ofNat 1) ?_
  have hone : pattern (Float.ofNat 1) = encodeQuotient (perSecond * unit) perSecond := by
    decide +kernel
  rw [pattern_fraction (Nat.le_of_lt d.subsecond_lt), hone]
  exact encodeQuotient_mono _ (Nat.mul_le_mul_right _ (Nat.le_of_lt d.subsecond_lt))

/-- **The double of a longer duration is not smaller**, as long as the seconds are exact. -/
theorem pattern_toFloat_mono (h : d.nanos ≤ e.nanos) (hd : d.seconds < 2 ^ 53) :
    pattern d.toFloat ≤ pattern e.toFloat := by
  rcases Nat.lt_or_eq_of_le (show d.seconds ≤ e.seconds from Nat.div_le_div_right h) with hlt | heq
  · calc pattern d.toFloat ≤ pattern (Float.ofNat d.seconds + Float.ofNat 1) := d.pattern_toFloat_le
      _ = pattern (Float.ofNat (d.seconds + 1)) := by
        rw [pattern_add (nonneg_ofNat _) (nonneg_ofNat 1), magnitude_pattern_ofNat (Nat.le_of_lt hd),
          magnitude_pattern_ofNat (by decide), ← Nat.add_mul, pattern_ofNat]
      _ ≤ pattern (Float.ofNat e.seconds) := pattern_ofNat_le hlt
      _ ≤ pattern e.toFloat := e.pattern_seconds_le
  · have hsub : d.subsecond ≤ e.subsecond := by
      have hdivd := Nat.div_add_mod d.nanos perSecond
      have hdive := Nat.div_add_mod e.nanos perSecond
      unfold seconds at heq
      unfold subsecond
      rw [heq] at hdivd
      omega
    unfold toFloat
    rw [heq]
    refine pattern_add_le (nonneg_ofNat _) d.nonneg_fraction e.nonneg_fraction ?_
    rw [pattern_fraction (Nat.le_of_lt d.subsecond_lt), pattern_fraction (Nat.le_of_lt e.subsecond_lt)]
    exact encodeQuotient_mono _ (Nat.mul_le_mul_right _ hsub)

/-- No duration is rounded to infinity. -/
theorem pattern_toFloat_lt (h : d.nanos ≤ longest.nanos) : pattern d.toFloat < infinityBits := by
  have hle : d.seconds ≤ longest.seconds := Nat.div_le_div_right h
  calc pattern d.toFloat ≤ pattern (Float.ofNat d.seconds + Float.ofNat 1) := d.pattern_toFloat_le
    _ ≤ pattern (Float.ofNat longest.seconds + Float.ofNat 1) := by
      rw [pattern_add (nonneg_ofNat _) (nonneg_ofNat 1), pattern_add (nonneg_ofNat _) (nonneg_ofNat 1)]
      exact encode_mono (Nat.add_le_add_right (magnitude_mono (pattern_ofNat_le hle)) _)
    _ < infinityBits := by decide +kernel

/-- **The decimal of a longer duration is not shorter.** -/
theorem length_fixed_mono {p : Nat} (hp : 0 < p) (h : d.nanos ≤ e.nanos) (hd : d.seconds < 2 ^ 53)
    (he : e.nanos ≤ longest.nanos) : (Decimal.fixed p d.toFloat).length ≤ (Decimal.fixed p e.toFloat).length :=
  Decimal.length_fixed_mono hp (pattern_toFloat_mono h hd) (pattern_toFloat_lt he)

/-- **Eight characters are enough for 9999.9995 seconds**, and for nothing longer. -/
theorem length_seconds_le_iff (h : d.nanos ≤ longest.nanos) :
    (Decimal.fixed 3 d.toFloat).length ≤ 8 ↔ d.nanos ≤ 9999999500000 := by
  constructor
  · intro hlen
    rw [← Nat.not_lt]
    intro hlong
    have hnine : (Decimal.fixed 3 (toFloat ⟨9999999500001⟩)).length = 9 := by
      decide +kernel
    have hle := length_fixed_mono (d := ⟨9999999500001⟩) (p := 3) (by decide) hlong (by decide) h
    omega
  · intro hshort
    have height : (Decimal.fixed 3 (toFloat ⟨9999999500000⟩)).length = 8 := by
      decide +kernel
    rw [← height]
    refine length_fixed_mono (by decide) hshort ?_ (by decide)
    exact Nat.lt_of_le_of_lt (Nat.div_le_div_right hshort) (by decide)

end Duration
end GroundPlanner
