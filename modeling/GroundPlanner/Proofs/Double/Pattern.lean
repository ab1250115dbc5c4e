import GroundPlanner.Rounding
import Mathlib.Algebra.Group.Nat.Defs
import Mathlib.Data.Nat.Log
import Mathlib.Tactic.SplitIfs
/-!
# Patterns of doubles

A double that is neither negative nor a NaN is a whole number of units of `2^-1074` or infinity, and its pattern is a
number up to `infinityBits`.  `magnitude` reads the units off a pattern, `encode` rounds units to a pattern; both keep
the order (`magnitude_mono`, `encode_mono`), and `encode` keeps what has 53 significant bits (`magnitude_encode`).
`encodeQuotient` rounds a quotient of units in the same way.
-/
namespace GroundPlanner

/-! ## Rounded quotients -/

theorem le_roundQuotient (num den : Nat) : num / den ≤ roundQuotient num den := by
  unfold roundQuotient
  simp only
  split
  · exact Nat.le_refl _
  · split
    · split
      · exact Nat.le_refl _
      · exact Nat.le_succ _
    · exact Nat.le_succ _

theorem roundQuotient_le_succ (num den : Nat) : roundQuotient num den ≤ num / den + 1 := by
  unfold roundQuotient
  simp only
  split
  · exact Nat.le_succ _
  · split
    · split
      · exact Nat.le_succ _
      · exact Nat.le_refl _
    · exact Nat.le_refl _

theorem roundQuotient_mul_self (q : Nat) {den : Nat} (h : 0 < den) : roundQuotient (q * den) den = q := by
  unfold roundQuotient
  rw [Nat.mul_mod_left, Nat.mul_div_cancel _ h]
  exact if_pos h

theorem roundQuotient_mono {a b : Nat} (den : Nat) (h : a ≤ b) : roundQuotient a den ≤ roundQuotient b den := by
  rcases Nat.lt_or_eq_of_le (Nat.div_le_div_right (c := den) h) with hlt | heq
  · calc roundQuotient a den ≤ a / den + 1 := roundQuotient_le_succ a den
      _ ≤ b / den := hlt
      _ ≤ roundQuotient b den := le_roundQuotient b den
  · have ha := Nat.div_add_mod a den
    have hb := Nat.div_add_mod b den
    have hmod : a % den ≤ b % den := by
      rw [heq] at ha
      omega
    unfold roundQuotient
    simp only [heq]
    split_ifs <;> omega

theorem roundQuotient_mul_right (a den : Nat) {c : Nat} (h : 0 < c) :
    roundQuotient (a * c) (den * c) = roundQuotient a den := by
  have hdiv : a * c / (den * c) = a / den := Nat.mul_div_mul_right a den h
  have hmod : a * c % (den * c) = a % den * c := Nat.mul_mod_mul_right c a den
  have hlt : 2 * (a % den * c) < den * c ↔ 2 * (a % den) < den := by
    rw [← Nat.mul_assoc, Nat.mul_lt_mul_right h]
  have heq : 2 * (a % den * c) = den * c ↔ 2 * (a % den) = den := by
    rw [← Nat.mul_assoc, Nat.mul_left_inj (Nat.ne_of_gt h)]
  unfold roundQuotient
  simp only [hdiv, hmod, hlt, heq]

namespace Double

/-- The pattern of infinity; greater patterns are negative numbers or NaNs. -/
def infinityBits : Nat :=
  0x7ff0000000000000

/-- The place of one among the bits of a number of units. -/
def onePlace : Nat :=
  1074

/-- One, in units of the least positive double. -/
def unit : Nat :=
  2 ^ onePlace

/-- The units of a number, by its pattern. -/
def magnitude (bits : Nat) : Nat :=
  if bits < 2 ^ 52 then bits else (2 ^ 52 + bits % 2 ^ 52) * 2 ^ (bits / 2 ^ 52 - 1)

/-- The place of the last of 53 significant bits of a number of units. -/
def lastPlace (v : Nat) : Nat :=
  v.log2 - 52

/-- The pattern of the double nearest to a number of units. -/
def encode (v : Nat) : Nat :=
  min infinityBits (lastPlace v * 2 ^ 52 + roundQuotient v (2 ^ lastPlace v))

/-- The pattern of the double nearest to a quotient of a number of units. -/
def encodeQuotient (v d : Nat) : Nat :=
  min infinityBits (lastPlace (v / d) * 2 ^ 52 + roundQuotient v (d * 2 ^ lastPlace (v / d)))

theorem encodeQuotient_one (v : Nat) : encodeQuotient v 1 = encode v := by
  rw [encodeQuotient, encode, Nat.div_one, Nat.one_mul]

theorem encodeQuotient_zero {d : Nat} (h : 0 < d) : encodeQuotient 0 d = 0 := by
  have hself := roundQuotient_mul_self 0 h
  rw [Nat.zero_mul] at hself
  rw [encodeQuotient, Nat.zero_div, show lastPlace 0 = 0 from rfl, Nat.pow_zero, Nat.mul_one, hself]
  rfl

theorem unit_pos : 0 < unit :=
  Nat.two_pow_pos _

theorem magnitude_of_lt {bits : Nat} (h : bits < 2 ^ 52) : magnitude bits = bits :=
  if_pos h

theorem magnitude_normal {e f : Nat} (hf : f < 2 ^ 52) : magnitude ((e + 1) * 2 ^ 52 + f) = (2 ^ 52 + f) * 2 ^ e := by
  have hge : ¬ (e + 1) * 2 ^ 52 + f < 2 ^ 52 := by omega
  have hdiv : ((e + 1) * 2 ^ 52 + f) / 2 ^ 52 = e + 1 := by omega
  have hmod : ((e + 1) * 2 ^ 52 + f) % 2 ^ 52 = f := by omega
  rw [magnitude, if_neg hge, hdiv, hmod, Nat.add_sub_cancel]

theorem magnitude_mono {b b' : Nat} (h : b ≤ b') : magnitude b ≤ magnitude b' := by
  by_cases hb' : b' < 2 ^ 52
  · rw [magnitude_of_lt hb', magnitude_of_lt (Nat.lt_of_le_of_lt h hb')]
    exact h
  · obtain ⟨e', f', hf', rfl⟩ : ∃ e f, f < 2 ^ 52 ∧ b' = (e + 1) * 2 ^ 52 + f :=
      ⟨b' / 2 ^ 52 - 1, b' % 2 ^ 52, Nat.mod_lt _ (by decide), by omega⟩
    rw [magnitude_normal hf']
    by_cases hb : b < 2 ^ 52
    · rw [magnitude_of_lt hb]
      calc b ≤ (2 ^ 52 + f') * 1 := by omega
        _ ≤ (2 ^ 52 + f') * 2 ^ e' := Nat.mul_le_mul_left _ (Nat.two_pow_pos _)
    · obtain ⟨e, f, hf, rfl⟩ : ∃ e f, f < 2 ^ 52 ∧ b = (e + 1) * 2 ^ 52 + f :=
        ⟨b / 2 ^ 52 - 1, b % 2 ^ 52, Nat.mod_lt _ (by decide), by omega⟩
      rw [magnitude_normal hf]
      rcases Nat.lt_or_eq_of_le (show e ≤ e' by omega) with hlt | rfl
      · calc (2 ^ 52 + f) * 2 ^ e ≤ 2 ^ 53 * 2 ^ e := Nat.mul_le_mul_right _ (by omega)
          _ = 2 ^ 52 * 2 ^ (e + 1) := by rw [Nat.pow_succ 2 e]; omega
          _ ≤ (2 ^ 52 + f') * 2 ^ e' := Nat.mul_le_mul (by omega) (Nat.pow_le_pow_right (by decide) hlt)
      · exact Nat.mul_le_mul_right _ (by omega)

/-! ## Rounding to a pattern -/

theorem lt_two_pow_lastPlace (v : Nat) : v < 2 ^ 53 * 2 ^ lastPlace v := by
  rw [← Nat.pow_add]
  calc v < 2 ^ (v.log2 + 1) := Nat.lt_log2_self
    _ ≤ 2 ^ (53 + lastPlace v) := Nat.pow_le_pow_right (by decide) (by unfold lastPlace; omega)

theorem two_pow_lastPlace_le {v : Nat} (h : 0 < lastPlace v) : 2 ^ 52 * 2 ^ lastPlace v ≤ v := by
  have hv : v ≠ 0 := by
    rintro rfl
    exact absurd h (by decide)
  rw [← Nat.pow_add, show 52 + lastPlace v = v.log2 by unfold lastPlace at *; omega]
  exact Nat.log2_self_le hv

theorem lastPlace_mono {v w : Nat} (h : v ≤ w) : lastPlace v ≤ lastPlace w := by
  unfold lastPlace
  simp only [Nat.log2_eq_log_two]
  exact Nat.sub_le_sub_right (Nat.log_mono_right h) _

/-- The rounded mantissa has 53 bits or is the power of two next to them. -/
theorem quotient_mantissa_le (v d : Nat) : roundQuotient v (d * 2 ^ lastPlace (v / d)) ≤ 2 ^ 53 := by
  have hlt : v / (d * 2 ^ lastPlace (v / d)) < 2 ^ 53 := by
    rw [← Nat.div_div_eq_div_mul]
    exact (Nat.div_lt_iff_lt_mul (Nat.two_pow_pos _)).2 (lt_two_pow_lastPlace _)
  have hle := roundQuotient_le_succ v (d * 2 ^ lastPlace (v / d))
  omega

theorem le_quotient_mantissa {v d : Nat} (h : 0 < lastPlace (v / d)) :
    2 ^ 52 ≤ roundQuotient v (d * 2 ^ lastPlace (v / d)) := by
  have hle : 2 ^ 52 ≤ v / (d * 2 ^ lastPlace (v / d)) := by
    rw [← Nat.div_div_eq_div_mul]
    exact (Nat.le_div_iff_mul_le (Nat.two_pow_pos _)).2 (two_pow_lastPlace_le h)
  exact Nat.le_trans hle (le_roundQuotient _ _)

theorem quotient_mantissa_pos {v d : Nat} (h : 0 < v / d) : 0 < roundQuotient v (d * 2 ^ lastPlace (v / d)) := by
  rcases Nat.eq_zero_or_pos (lastPlace (v / d)) with hk | hk
  · rw [hk, Nat.pow_zero, Nat.mul_one]
    exact Nat.lt_of_lt_of_le h (le_roundQuotient v d)
  · exact Nat.lt_of_lt_of_le (by decide) (le_quotient_mantissa hk)

theorem mantissa_le (v : Nat) : roundQuotient v (2 ^ lastPlace v) ≤ 2 ^ 53 := by
  have hle := quotient_mantissa_le v 1
  rwa [Nat.div_one, Nat.one_mul] at hle

theorem le_mantissa {v : Nat} (h : 0 < lastPlace v) : 2 ^ 52 ≤ roundQuotient v (2 ^ lastPlace v) := by
  have hle := le_quotient_mantissa (v := v) (d := 1) (by rwa [Nat.div_one])
  rwa [Nat.div_one, Nat.one_mul] at hle

theorem encode_le (v : Nat) : encode v ≤ infinityBits :=
  Nat.min_le_left _ _

theorem encodeQuotient_le (v d : Nat) : encodeQuotient v d ≤ infinityBits :=
  Nat.min_le_left _ _

/-- **Rounding a quotient keeps the order.** -/
theorem encodeQuotient_mono {v w : Nat} (d : Nat) (h : v ≤ w) : encodeQuotient v d ≤ encodeQuotient w d := by
  refine Nat.le_min.2 ⟨encodeQuotient_le v d, Nat.le_trans (Nat.min_le_right _ _) ?_⟩
  rcases Nat.lt_or_eq_of_le (lastPlace_mono (Nat.div_le_div_right (c := d) h)) with hlt | heq
  · -- Across a power of two the mantissas do not compare, but the exponents decide.
    have hv := quotient_mantissa_le v d
    have hw := le_quotient_mantissa (v := w) (d := d) (by omega)
    have hplace : (lastPlace (v / d) + 1) * 2 ^ 52 ≤ lastPlace (w / d) * 2 ^ 52 := Nat.mul_le_mul_right _ hlt
    omega
  · rw [heq]
    exact Nat.add_le_add_left (roundQuotient_mono _ h) _

/-- A quotient does not change if both of its parts are multiplied. -/
theorem encodeQuotient_mul_right (v d : Nat) {c : Nat} (h : 0 < c) :
    encodeQuotient (v * c) (d * c) = encodeQuotient v d := by
  rw [encodeQuotient, encodeQuotient, Nat.mul_div_mul_right v d h, Nat.mul_right_comm, roundQuotient_mul_right _ _ h]

/-- **Rounding keeps the order.** -/
theorem encode_mono {v w : Nat} (h : v ≤ w) : encode v ≤ encode w := by
  rw [← encodeQuotient_one, ← encodeQuotient_one]
  exact encodeQuotient_mono 1 h

/-- **What is not rounded to infinity is rounded to its mantissa at its last place.** -/
theorem magnitude_encode_of_lt {v : Nat} (h : encode v < infinityBits) :
    magnitude (encode v) = roundQuotient v (2 ^ lastPlace v) * 2 ^ lastPlace v := by
  have hle := mantissa_le v
  have hge := le_mantissa (v := v)
  have henc : encode v = lastPlace v * 2 ^ 52 + roundQuotient v (2 ^ lastPlace v) := by
    unfold encode at h ⊢
    omega
  rw [henc]
  generalize roundQuotient v (2 ^ lastPlace v) = q at *
  generalize lastPlace v = k at *
  rcases Nat.lt_or_eq_of_le hle with hlt | rfl
  · by_cases hsub : k = 0 ∧ q < 2 ^ 52
    · obtain ⟨rfl, hsub⟩ := hsub
      rw [Nat.zero_mul, Nat.zero_add, magnitude_of_lt hsub, Nat.pow_zero, Nat.mul_one]
    · have hq : 2 ^ 52 ≤ q := by
        rcases Nat.eq_zero_or_pos k with rfl | hk
        · omega
        · exact hge hk
      rw [show k * 2 ^ 52 + q = (k + 1) * 2 ^ 52 + (q - 2 ^ 52) by omega, magnitude_normal (by omega),
        Nat.add_sub_cancel' hq]
  · -- Rounding carried into the next power of two.
    rw [show k * 2 ^ 52 + 2 ^ 53 = (k + 1 + 1) * 2 ^ 52 + 0 by omega, magnitude_normal (by decide), Nat.add_zero,
      Nat.pow_succ 2 k]
    omega

/-- A number with at most 53 significant bits that is not too great keeps its value. -/
theorem magnitude_encode {v : Nat} (hdvd : 2 ^ lastPlace v ∣ v) (hplace : lastPlace v < 2045) :
    encode v < infinityBits ∧ magnitude (encode v) = v := by
  have hraw : encode v < infinityBits := by
    have hle := mantissa_le v
    unfold encode infinityBits
    omega
  refine ⟨hraw, ?_⟩
  obtain ⟨q, hq⟩ := hdvd
  have hself := roundQuotient_mul_self q (Nat.two_pow_pos (lastPlace v))
  rw [Nat.mul_comm q, ← hq] at hself
  rw [magnitude_encode_of_lt hraw, hself, Nat.mul_comm q, ← hq]

theorem log2_mul_two_pow_div {n d : Nat} (h : 0 < n / d) (j : Nat) : (n * 2 ^ j / d).log2 = (n / d).log2 + j := by
  have hd : 0 < d := Nat.pos_of_ne_zero fun hd => by
    rw [hd, Nat.div_zero] at h
    exact absurd h (Nat.lt_irrefl 0)
  have hlo : 2 ^ (n / d).log2 * d ≤ n := (Nat.le_div_iff_mul_le hd).1 (Nat.log2_self_le (Nat.ne_of_gt h))
  have hhi : n < 2 ^ ((n / d).log2 + 1) * d := (Nat.div_lt_iff_lt_mul hd).1 Nat.lt_log2_self
  have hle : 2 ^ ((n / d).log2 + j) ≤ n * 2 ^ j / d := by
    rw [Nat.le_div_iff_mul_le hd, Nat.pow_add, Nat.mul_right_comm]
    exact Nat.mul_le_mul_right _ hlo
  have hlt : n * 2 ^ j / d < 2 ^ ((n / d).log2 + j + 1) := by
    rw [Nat.div_lt_iff_lt_mul hd, Nat.add_right_comm, Nat.pow_add 2 ((n / d).log2 + 1), Nat.mul_right_comm]
    exact (Nat.mul_lt_mul_right (Nat.two_pow_pos j)).2 hhi
  exact (Nat.log2_eq_iff (Nat.ne_of_gt (Nat.lt_of_lt_of_le (Nat.two_pow_pos _) hle))).2 ⟨hle, hlt⟩

theorem log2_mul_two_pow {m : Nat} (h : 0 < m) (j : Nat) : (m * 2 ^ j).log2 = m.log2 + j := by
  have hlog := log2_mul_two_pow_div (n := m) (d := 1) (by rwa [Nat.div_one]) j
  rwa [Nat.div_one, Nat.div_one] at hlog

/-- What a division cuts off below one does not reach the last place. -/
theorem lastPlace_mul_two_pow_div {n d : Nat} (h : 0 < n / d) (j : Nat) :
    lastPlace (n * 2 ^ j / d) = lastPlace (n / d * 2 ^ j) := by
  rw [lastPlace, lastPlace, log2_mul_two_pow_div h, log2_mul_two_pow h]

theorem lastPlace_canonical {q k : Nat} (hlt : q < 2 ^ 53) (hge : 0 < k → 2 ^ 52 ≤ q) : lastPlace (q * 2 ^ k) = k := by
  unfold lastPlace
  rcases Nat.eq_zero_or_pos q with rfl | hq
  · have hk : k = 0 := by omega
    rw [hk]
    rfl
  · have hlog : q.log2 < 53 := (Nat.log2_lt (Nat.ne_of_gt hq)).2 hlt
    rw [log2_mul_two_pow hq]
    rcases Nat.eq_zero_or_pos k with rfl | hk
    · omega
    · have hlog' : 52 ≤ q.log2 := (Nat.le_log2 (Nat.ne_of_gt hq)).2 (hge hk)
      omega

/-- A mantissa of 53 bits, or any smaller one at the last place of all, is not rounded. -/
theorem encode_canonical {q k : Nat} (hlt : q < 2 ^ 53) (hge : 0 < k → 2 ^ 52 ≤ q) :
    encode (q * 2 ^ k) = min infinityBits (k * 2 ^ 52 + q) := by
  rw [encode, lastPlace_canonical hlt hge, roundQuotient_mul_self q (Nat.two_pow_pos k)]

/-- **Rounding the units of a pattern gives the pattern back.** -/
theorem encode_magnitude {b : Nat} (h : b ≤ infinityBits) : encode (magnitude b) = b := by
  by_cases hb : b < 2 ^ 52
  · rw [magnitude_of_lt hb]
    have henc := encode_canonical (q := b) (k := 0) (by omega) (fun h => absurd h (Nat.lt_irrefl 0))
    rw [Nat.pow_zero, Nat.mul_one, Nat.zero_mul, Nat.zero_add, Nat.min_eq_right h] at henc
    exact henc
  · obtain ⟨e, f, hf, rfl⟩ : ∃ e f, f < 2 ^ 52 ∧ b = (e + 1) * 2 ^ 52 + f :=
      ⟨b / 2 ^ 52 - 1, b % 2 ^ 52, Nat.mod_lt _ (by decide), by omega⟩
    rw [magnitude_normal hf, encode_canonical (by omega) (fun _ => by omega),
      show e * 2 ^ 52 + (2 ^ 52 + f) = (e + 1) * 2 ^ 52 + f by omega, Nat.min_eq_right h]

theorem encode_infinity_add (v : Nat) : encode (magnitude infinityBits + v) = infinityBits := by
  refine Nat.le_antisymm (encode_le _) ?_
  calc infinityBits = encode (magnitude infinityBits) := (encode_magnitude (Nat.le_refl _)).symm
    _ ≤ encode (magnitude infinityBits + v) := encode_mono (Nat.le_add_right _ _)

/-! ## Whole numbers -/

theorem lastPlace_mul_unit {n : Nat} (h : 0 < n) : lastPlace (n * unit) = n.log2 + 1022 := by
  have hlog : (n * unit).log2 = n.log2 + onePlace := log2_mul_two_pow h onePlace
  rw [lastPlace, hlog, onePlace]
  omega

/-- **Whole numbers up to `2^53` are kept.** -/
theorem magnitude_encode_mul_unit {n : Nat} (h : n ≤ 2 ^ 53) :
    encode (n * unit) < infinityBits ∧ magnitude (encode (n * unit)) = n * unit := by
  rcases Nat.eq_zero_or_pos n with rfl | hn
  · rw [Nat.zero_mul]
    exact ⟨by decide, by decide⟩
  · have hdvd : 2 ^ (n.log2 + 1022) ∣ n * unit := by
      rcases Nat.lt_or_eq_of_le h with hlt | rfl
      · have hlog : n.log2 < 53 := (Nat.log2_lt (Nat.ne_of_gt hn)).2 hlt
        exact Nat.dvd_trans (Nat.pow_dvd_pow 2 (show n.log2 + 1022 ≤ onePlace by unfold onePlace; omega))
          (Nat.dvd_mul_left _ _)
      · have hle : (2 ^ 53).log2 + 1022 ≤ 53 + onePlace := by
          rw [Nat.log2_two_pow, onePlace]
          omega
        rw [unit, ← Nat.pow_add]
        exact Nat.pow_dvd_pow 2 hle
    have hlog : n.log2 ≤ 53 := by
      rw [← Nat.lt_succ_iff, Nat.log2_lt (Nat.ne_of_gt hn)]
      exact Nat.lt_of_le_of_lt h (by decide)
    rw [← lastPlace_mul_unit hn] at hdvd
    refine magnitude_encode hdvd ?_
    rw [lastPlace_mul_unit hn]
    omega

/-- **Rounding does not go below a whole number up to `2^53`.** -/
theorem le_magnitude_encode {n v : Nat} (hn : n ≤ 2 ^ 53) (h : n * unit ≤ v) : n * unit ≤ magnitude (encode v) := by
  rw [← (magnitude_encode_mul_unit hn).2]
  exact magnitude_mono (encode_mono h)

/-- A whole number is rounded to infinity or to a whole number, which is `2^53` at least if the number is. -/
theorem exists_magnitude_encode_mul_unit {n : Nat} (h : encode (n * unit) < infinityBits) :
    ∃ a, magnitude (encode (n * unit)) = a * unit ∧ min n (2 ^ 53) ≤ a := by
  rcases Nat.le_total n (2 ^ 53) with hn | hn
  · exact ⟨n, (magnitude_encode_mul_unit hn).2, Nat.min_le_left _ _⟩
  · have hpos : 0 < n := Nat.lt_of_lt_of_le (by decide) hn
    have hlog : 53 ≤ n.log2 := (Nat.le_log2 (Nat.ne_of_gt hpos)).2 hn
    have hplace : onePlace ≤ lastPlace (n * unit) := by
      rw [lastPlace_mul_unit hpos, onePlace]
      omega
    obtain ⟨c, hc⟩ : unit ∣ magnitude (encode (n * unit)) := by
      rw [magnitude_encode_of_lt h]
      exact Nat.dvd_mul_left_of_dvd (Nat.pow_dvd_pow 2 hplace) _
    rw [Nat.mul_comm unit c] at hc
    refine ⟨c, hc, Nat.le_trans (Nat.min_le_right _ _) ?_⟩
    have hle := le_magnitude_encode (Nat.le_refl (2 ^ 53)) (Nat.mul_le_mul_right unit hn)
    rw [hc] at hle
    exact Nat.le_of_mul_le_mul_right hle unit_pos

end Double
end GroundPlanner
