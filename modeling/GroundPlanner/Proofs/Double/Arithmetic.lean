import GroundPlanner.Proofs.Double.Rounding
/-!
# Arithmetic on doubles that are not negative

On patterns up to `infinityBits`, a sum is the rounded sum of the units (`pattern_add`), so it grows with its parts
(`pattern_add_le`).  Whole numbers are rounded (`pattern_ofNat`), and so is the quotient of two exact ones
(`pattern_ofNat_div`).  A weighted sum of them is rounded once if its parts are at most `2^53`
(`pattern_ofNat_mul_add`), and is never rounded to below that from above (`le_magnitude_ofNat_mul_add`).
-/
namespace GroundPlanner
namespace Double

open Float.Model Float.Model.UnpackedFloat

/-- The pattern of a double, as a number. -/
def pattern (x : Float) : Nat :=
  x.toBits.toNat

/-- Neither a NaN nor negative, minus zero included. -/
def Nonneg (x : Float) : Prop :=
  pattern x ≤ infinityBits

/-- Greater than zero and finite. -/
def Positive (x : Float) : Prop :=
  0 < pattern x ∧ pattern x < infinityBits

theorem reads_float {x : Float} (h : Nonneg x) : Reads (pattern x) x.toModel.unpack :=
  reads h

/-! ## Sums -/

theorem toNat_pack_finite {b m j : Nat} (h : 0 < m) (hmag : magnitude b = m * 2 ^ j) (hlt : m < 2 ^ 53)
    (hge : 0 < j → 2 ^ 52 ≤ m) :
    (pack Format.binary64 (.finite .positive m ((j : Int) - 1074) h)).toNat = encode (magnitude b) := by
  rw [toNat_pack h hlt hge, hmag, encode_canonical hlt hge]

theorem toNat_pack_add {b b' : Nat} {u u' : UnpackedFloat} (h : Reads b u) (h' : Reads b' u') :
    (pack Format.binary64 (add Format.binary64 u u')).toNat = encode (magnitude b + magnitude b') := by
  cases h with
  | infinity =>
    rw [encode_infinity_add]
    cases h' <;> exact toNat_packedInfinity
  | zero =>
    rw [show magnitude 0 = 0 from rfl, Nat.zero_add]
    cases h' with
    | zero => decide
    | finite hm hb hmag hlt hge => exact toNat_pack_finite hm hmag hlt hge
    | infinity =>
      rw [encode_magnitude (Nat.le_refl _)]
      exact toNat_packedInfinity
  | @finite b m j hm hb hmag hlt hge =>
    cases h' with
    | zero =>
      rw [show magnitude 0 = 0 from rfl, Nat.add_zero]
      exact toNat_pack_finite hm hmag hlt hge
    | infinity =>
      rw [Nat.add_comm, encode_infinity_add]
      exact toNat_packedInfinity
    | @finite b' m' j' hm' hb' hmag' hlt' hge' =>
      have hmin : min ((j : Int) - 1074) ((j' : Int) - 1074) = (min j j' : Nat) - 1074 := by omega
      have hs : ((j : Int) - 1074 - ((min j j' : Nat) - 1074)).toNat = j - min j j' := by omega
      have hs' : ((j' : Int) - 1074 - ((min j j' : Nat) - 1074)).toNat = j' - min j j' := by omega
      have hsum : (m <<< (j - min j j') + m' <<< (j' - min j j')) * 2 ^ min j j' = magnitude b + magnitude b' := by
        rw [hmag, hmag', Nat.add_mul, Nat.shiftLeft_eq, Nat.shiftLeft_eq, Nat.mul_assoc, Nat.mul_assoc, ← Nat.pow_add,
          ← Nat.pow_add, Nat.sub_add_cancel (Nat.min_le_left _ _), Nat.sub_add_cancel (Nat.min_le_right _ _)]
      unfold UnpackedFloat.add decreaseExponent
      simp only [hmin, hs, hs', Sign.apply]
      rw [← Int.natCast_add, pack_normalize, hsum]

/-- **A sum is the rounded sum of the units.** -/
theorem pattern_add {x y : Float} (hx : Nonneg x) (hy : Nonneg y) :
    pattern (x + y) = encode (magnitude (pattern x) + magnitude (pattern y)) :=
  toNat_pack_add (reads_float hx) (reads_float hy)

theorem nonneg_add {x y : Float} (hx : Nonneg x) (hy : Nonneg y) : Nonneg (x + y) := by
  unfold Nonneg
  rw [pattern_add hx hy]
  exact encode_le _

/-- **A sum grows with its second part.** -/
theorem pattern_add_le {x y z : Float} (hx : Nonneg x) (hy : Nonneg y) (hz : Nonneg z) (h : pattern y ≤ pattern z) :
    pattern (x + y) ≤ pattern (x + z) := by
  rw [pattern_add hx hy, pattern_add hx hz]
  exact encode_mono (Nat.add_le_add_left (magnitude_mono h) _)

/-! ## Products -/

theorem toNat_pack_le (m : Nat) (e : Int) (h : 0 < m) :
    (pack Format.binary64 (.finite .positive m e h)).toNat ≤ infinityBits := by
  unfold UnpackedFloat.pack
  dsimp only
  split
  · exact Nat.le_of_eq toNat_packedInfinity
  · rename_i hsmall
    generalize (e + (Format.binary64.exponentBias : Nat) +
      (Format.binary64.mantissaBitsWithoutImplicit : Nat)).toNat = k at hsmall
    have hsmall : ¬ 2 ^ 11 ≤ k + 1 := hsmall
    unfold infinityBits
    split
    · rw [toNat_packComponents, BitVec.toNat_ofNat, BitVec.toNat_ofNat]
      omega
    · rw [toNat_packComponents, BitVec.toNat_ofNat]
      change 0 * 2 ^ 52 + m % 2 ^ 52 ≤ _
      omega

theorem toNat_pack_roundWithAccuracy_le (m : Nat) (e : Int) :
    (pack Format.binary64 (roundWithAccuracy Format.binary64 .positive m e .exact)).toNat ≤ infinityBits := by
  have hpack : ∀ (q : Nat) (e : Int), (pack Format.binary64 (if h : q = 0 then .zero .positive
      else .finite .positive q e (Nat.pos_of_ne_zero h))).toNat ≤ infinityBits := by
    intro q e
    by_cases h : q = 0
    · rw [dif_pos h]
      decide
    · rw [dif_neg h]
      exact toNat_pack_le _ _ _
  exact hpack _ _

/-- What a positive number makes of zero, of infinity and of the numbers between. -/
theorem toNat_pack_mul {b b' : Nat} {u u' : UnpackedFloat} (h : Reads b u) (h' : Reads b' u') (hpos : 0 < b)
    (hlt : b < infinityBits) :
    (pack Format.binary64 (mul Format.binary64 u u')).toNat ≤ infinityBits ∧
    (b' = 0 → (pack Format.binary64 (mul Format.binary64 u u')).toNat = 0) ∧
    (b' = infinityBits → (pack Format.binary64 (mul Format.binary64 u u')).toNat = infinityBits) := by
  cases h with
  | zero => exact absurd hpos (Nat.lt_irrefl _)
  | infinity => exact absurd hlt (Nat.lt_irrefl _)
  | finite =>
    cases h' with
    | zero => exact ⟨Nat.zero_le _, fun _ => rfl, fun h => absurd h (by decide)⟩
    | infinity =>
      have hinf : (pack Format.binary64 (.infinity .positive)).toNat = infinityBits := toNat_packedInfinity
      exact ⟨Nat.le_of_eq hinf, fun h => absurd h (by decide), fun _ => hinf⟩
    | finite hm' hb' hmag' =>
      refine ⟨toNat_pack_roundWithAccuracy_le _ _, fun h => ?_, fun h => absurd h (Nat.ne_of_lt hb')⟩
      rw [h] at hmag'
      exact absurd hmag' (Nat.ne_of_lt (Nat.mul_pos hm' (Nat.two_pow_pos _)))

theorem nonneg_mul {x y : Float} (hx : Positive x) (hy : Nonneg y) : Nonneg (x * y) :=
  (toNat_pack_mul (reads_float (Nat.le_of_lt hx.2)) (reads_float hy) hx.1 hx.2).1

theorem pattern_mul_zero {x y : Float} (hx : Positive x) (hy : pattern y = 0) : pattern (x * y) = 0 :=
  (toNat_pack_mul (reads_float (Nat.le_of_lt hx.2)) (reads_float (hy.trans_le (Nat.zero_le _))) hx.1 hx.2).2.1 hy

theorem pattern_mul_infinity {x y : Float} (hx : Positive x) (hy : pattern y = infinityBits) :
    pattern (x * y) = infinityBits :=
  (toNat_pack_mul (reads_float (Nat.le_of_lt hx.2)) (reads_float (Nat.le_of_eq hy)) hx.1 hx.2).2.2 hy

theorem lt_of_one_le {a m j : Nat} (ha : 0 < a) (hm : m < 2 ^ 53) (h : m * 2 ^ j = a * unit) : 1021 < j := by
  rcases Nat.lt_or_ge 1021 j with hj | hj
  · exact hj
  · have hlt : m * 2 ^ j < unit := by
      calc m * 2 ^ j < 2 ^ 53 * 2 ^ j := (Nat.mul_lt_mul_right (Nat.two_pow_pos j)).2 hm
        _ = 2 ^ (53 + j) := (Nat.pow_add 2 53 j).symm
        _ ≤ unit := Nat.pow_le_pow_right (by decide) (show 53 + j ≤ onePlace by unfold onePlace; omega)
    rw [h] at hlt
    exact absurd hlt (Nat.not_lt.2 (Nat.le_mul_of_pos_left unit ha))

theorem toNat_pack_mul_units {b b' a c : Nat} {u u' : UnpackedFloat} (h : Reads b u) (h' : Reads b' u')
    (hlt : b < infinityBits) (hlt' : b' < infinityBits) (ha : 0 < a) (hc : 0 < c) (hb : magnitude b = a * unit)
    (hb' : magnitude b' = c * unit) :
    (pack Format.binary64 (mul Format.binary64 u u')).toNat = encode (a * c * unit) := by
  cases h with
  | zero => exact absurd hb (Nat.ne_of_lt (Nat.mul_pos ha unit_pos))
  | infinity => exact absurd hlt (Nat.lt_irrefl _)
  | @finite _ m j hm _ hmag hm53 hge =>
    cases h' with
    | zero => exact absurd hb' (Nat.ne_of_lt (Nat.mul_pos hc unit_pos))
    | infinity => exact absurd hlt' (Nat.lt_irrefl _)
    | @finite _ m' j' hm' _ hmag' hm53' hge' =>
      have hmj := hmag.symm.trans hb
      have hmj' := hmag'.symm.trans hb'
      have hj := lt_of_one_le ha hm53 hmj
      have hj' := lt_of_one_le hc hm53' hmj'
      have hexp : (j : Int) - 1074 + ((j' : Int) - 1074) = (j + j' - 1074 : Nat) - 1074 := by omega
      have hval : m * m' * 2 ^ (j + j' - 1074) = a * c * unit := by
        refine Nat.eq_of_mul_eq_mul_right unit_pos ?_
        calc m * m' * 2 ^ (j + j' - 1074) * unit = m * m' * 2 ^ (j + j' - 1074 + onePlace) := by
              rw [unit, Nat.mul_assoc, ← Nat.pow_add]
          _ = m * m' * 2 ^ (j + j') := by rw [show j + j' - 1074 + onePlace = j + j' by unfold onePlace; omega]
          _ = (m * 2 ^ j) * (m' * 2 ^ j') := by rw [Nat.pow_add, Nat.mul_mul_mul_comm]
          _ = a * c * unit * unit := by rw [hmj, hmj', Nat.mul_mul_mul_comm, Nat.mul_assoc (a * c)]
      have hpos : 0 < m * m' := Nat.mul_pos hm hm'
      have hlog : 52 ≤ (m * m').log2 :=
        (Nat.le_log2 (Nat.ne_of_gt hpos)).2 (Nat.le_trans (hge (by omega)) (Nat.le_mul_of_pos_right m hm'))
      change (pack Format.binary64 (roundWithAccuracy Format.binary64 .positive (m * m') _ .exact)).toNat = _
      rw [hexp, pack_roundWithAccuracy hpos, hval]
      rw [lastPlace, log2_mul_two_pow hpos]
      omega

/-! ## Quotients -/

theorem le_of_le_units {d m j : Nat} (hd : d ≤ 2 ^ 53) (hm : 2 ^ 52 ≤ m) (h : m * 2 ^ j = d * unit) : j ≤ 1075 := by
  rw [← Nat.not_lt]
  intro hj
  have hlt : d * unit < m * 2 ^ j := by
    calc d * unit ≤ 2 ^ 53 * unit := Nat.mul_le_mul_right _ hd
      _ = 2 ^ (53 + onePlace) := by rw [unit, Nat.pow_add]
      _ < 2 ^ (52 + j) := Nat.pow_lt_pow_right (by decide) (show 53 + onePlace < 52 + j by unfold onePlace; omega)
      _ = 2 ^ 52 * 2 ^ j := Nat.pow_add 2 52 j
      _ ≤ m * 2 ^ j := Nat.mul_le_mul_right _ hm
  exact Nat.ne_of_gt hlt h

/-- A quotient of mantissas of 53 bits is computed with 53 further bits. -/
theorem divCore_eq {m j m' j' : Nat} (hm : m.log2 = 52) (hm' : m'.log2 = 52) (hj : j' ≤ j + 1021) :
    divCore Format.binary64 m ((j : Int) - 1074) m' ((j' : Int) - 1074) =
      (m * 2 ^ 53 / m', ((j + 1021 - j' : Nat) : Int) - 1074, accuracyOfFraction (m * 2 ^ 53 % m') m') := by
  have htarget : min ((j : Int) - 1074 - ((j' : Int) - 1074)) (Format.binary64.targetExponent
      (totalExponent m ((j : Int) - 1074) - totalExponent m' ((j' : Int) - 1074))) =
        ((j + 1021 - j' : Nat) : Int) - 1074 := by
    change min _ (max ((m.log2 : Int) + 1 + ((j : Int) - 1074) - ((m'.log2 : Int) + 1 + ((j' : Int) - 1074)) -
      (53 : Nat)) (-1074)) = _
    rw [hm, hm']
    omega
  have hshift : ((j : Int) - 1074 - ((j' : Int) - 1074) - (((j + 1021 - j' : Nat) : Int) - 1074)).toNat = 53 := by
    omega
  unfold divCore
  dsimp only
  rw [htarget, hshift, Nat.shiftLeft_eq]

theorem toNat_pack_div_units {b b' a d : Nat} {u u' : UnpackedFloat} (h : Reads b u) (h' : Reads b' u')
    (hlt : b < infinityBits) (hlt' : b' < infinityBits) (hd : 0 < d) (hd53 : d ≤ 2 ^ 53) (hb : magnitude b = a * unit)
    (hb' : magnitude b' = d * unit) :
    (pack Format.binary64 (div Format.binary64 u u')).toNat = encodeQuotient (a * unit) d := by
  cases h with
  | zero =>
    cases h' with
    | zero => exact absurd hb' (Nat.ne_of_lt (Nat.mul_pos hd unit_pos))
    | infinity => exact absurd hlt' (Nat.lt_irrefl _)
    | finite =>
      rw [← hb, show magnitude 0 = 0 from rfl, encodeQuotient_zero hd]
      rfl
  | infinity => exact absurd hlt (Nat.lt_irrefl _)
  | @finite _ m j hm _ hmag hm53 hge =>
    cases h' with
    | zero => exact absurd hb' (Nat.ne_of_lt (Nat.mul_pos hd unit_pos))
    | infinity => exact absurd hlt' (Nat.lt_irrefl _)
    | @finite _ m' j' hm' _ hmag' hm53' hge' =>
      have hmj := hmag.symm.trans hb
      have hmj' := hmag'.symm.trans hb'
      have ha : 0 < a := Nat.pos_of_mul_pos_right (hmj ▸ Nat.mul_pos hm (Nat.two_pow_pos j))
      have hj := lt_of_one_le ha hm53 hmj
      have hj' := lt_of_one_le hd hm53' hmj'
      have hm52 := hge (by omega)
      have hm52' := hge' (by omega)
      have hle := le_of_le_units hd53 hm52' hmj'
      have hq : 2 ^ 52 ≤ m * 2 ^ 53 / m' :=
        (Nat.le_div_iff_mul_le hm').2 (Nat.mul_le_mul hm52 (Nat.le_of_lt hm53'))
      have hpos : 0 < m * 2 ^ 53 / m' := Nat.lt_of_lt_of_le (by decide) hq
      have hlog : 52 ≤ (m * 2 ^ 53 / m').log2 := (Nat.le_log2 (Nat.ne_of_gt hpos)).2 hq
      have hround := pack_roundWithAccuracy_div (j := j + 1021 - j') hm' hpos (by
        rw [lastPlace, log2_mul_two_pow hpos]
        omega)
      have hjj : j' ≤ j + 1021 := by omega
      have hcore := divCore_eq ((Nat.log2_eq_iff (Nat.ne_of_gt hm)).2 ⟨hm52, hm53⟩)
        ((Nat.log2_eq_iff (Nat.ne_of_gt hm')).2 ⟨hm52', hm53'⟩) hjj
      have hscale : m * 2 ^ 53 * 2 ^ (j + 1021 - j') * 2 ^ j' = a * unit * unit := by
        rw [Nat.mul_assoc m, ← Nat.pow_add, Nat.mul_assoc m, ← Nat.pow_add,
          show 53 + (j + 1021 - j') + j' = j + onePlace by unfold onePlace; omega, Nat.pow_add, ← Nat.mul_assoc, hmj,
          unit]
      unfold UnpackedFloat.div
      dsimp only
      rw [hcore]
      calc _ = encodeQuotient (m * 2 ^ 53 * 2 ^ (j + 1021 - j')) m' := hround
        _ = encodeQuotient (m * 2 ^ 53 * 2 ^ (j + 1021 - j') * 2 ^ j') (m' * 2 ^ j') :=
          (encodeQuotient_mul_right _ _ (Nat.two_pow_pos j')).symm
        _ = encodeQuotient (a * unit * unit) (d * unit) := by rw [hscale, hmj']
        _ = encodeQuotient (a * unit) d := encodeQuotient_mul_right _ _ unit_pos

/-! ## Whole numbers -/

theorem pattern_mul {x y : Float} {a c : Nat} (hx : pattern x = encode (a * unit)) (hy : pattern y = encode (c * unit))
    (ha : 0 < a) (hc : 0 < c) (ha53 : a ≤ 2 ^ 53) (hc53 : c ≤ 2 ^ 53) : pattern (x * y) = encode (a * c * unit) := by
  obtain ⟨hxlt, hxmag⟩ := magnitude_encode_mul_unit ha53
  obtain ⟨hylt, hymag⟩ := magnitude_encode_mul_unit hc53
  rw [← hx] at hxlt hxmag
  rw [← hy] at hylt hymag
  exact toNat_pack_mul_units (reads_float (Nat.le_of_lt hxlt)) (reads_float (Nat.le_of_lt hylt)) hxlt hylt ha hc
    hxmag hymag

theorem pattern_toFloat (n : UInt64) : pattern n.toFloat = encode (n.toNat * unit) :=
  pack_normalize n.toNat onePlace

theorem pattern_one : pattern (Float.ofBits 0x3ff0000000000000) = encode (1 * unit) := by
  decide +kernel

theorem pattern_ofNat_of_lt {n : Nat} (hn : 0 < n) (h : n < 2 ^ 53) : pattern (Float.ofNat n) = encode (n * unit) := by
  have hconv : pattern n.toUInt64.toFloat = encode (n * unit) := by
    rw [pattern_toFloat, show n.toUInt64.toNat = n from UInt64.toNat_ofNat_of_lt' (Nat.lt_trans h (by decide))]
  have heq : Float.ofNat n = n.toUInt64.toFloat * Float.ofBits 0x3ff0000000000000 := by
    change Float.ofScientific n false 0 = _
    unfold Float.ofScientific
    rw [dif_pos ⟨h, by decide⟩]
    rfl
  rw [heq, pattern_mul hconv pattern_one hn Nat.one_pos (Nat.le_of_lt h) (by decide), Nat.mul_one]

theorem pattern_ofNat_of_le {n : Nat} (h : 2 ^ 53 ≤ n) : pattern (Float.ofNat n) = encode (n * unit) := by
  have hn : 0 < n := Nat.lt_of_lt_of_le (by decide) h
  have heq : Float.ofNat n = .ofModel (.ofScientific n 0) := by
    change Float.ofScientific n false 0 = _
    unfold Float.ofScientific
    rw [dif_neg (fun h' => Nat.not_lt.2 h h'.1)]
    rfl
  have hval : n <<< 53 * 10 ^ 0 * 2 ^ (onePlace - 53) = n * unit := by
    rw [Nat.pow_zero, Nat.mul_one, Nat.shiftLeft_eq, Nat.mul_assoc, ← Nat.pow_add, unit,
      show 53 + (onePlace - 53) = onePlace from rfl]
  have hpos : 0 < n <<< 53 * 10 ^ 0 := by
    rw [Nat.pow_zero, Nat.mul_one, Nat.shiftLeft_eq]
    exact Nat.mul_pos hn (by decide)
  have hround := pack_roundWithAccuracy (m := n <<< 53 * 10 ^ 0) (j := onePlace - 53) hpos (by
    rw [hval, lastPlace_mul_unit hn, onePlace]
    omega)
  rw [hval] at hround
  rw [heq, ← hround]
  change (pack Format.binary64 (UnpackedFloat.ofScientific Format.binary64 n 0)).toNat = _
  have hlog : ¬ (0 : Int) < -((2 ^ 11 : Int) + n.log2) := by omega
  unfold UnpackedFloat.ofScientific
  rw [dif_neg (Nat.ne_of_gt hn), if_neg (by decide), if_neg hlog, if_pos (Int.le_refl 0)]
  rfl

/-- **The double of a whole number is its rounding.** -/
theorem pattern_ofNat (n : Nat) : pattern (Float.ofNat n) = encode (n * unit) := by
  rcases Nat.lt_or_ge n (2 ^ 53) with h | h
  · rcases Nat.eq_zero_or_pos n with rfl | hn
    · decide +kernel
    · exact pattern_ofNat_of_lt hn h
  · exact pattern_ofNat_of_le h

/-- **The quotient of whole numbers is rounded once**, if they are exact. -/
theorem pattern_ofNat_div {a d : Nat} (hd : 0 < d) (ha53 : a ≤ 2 ^ 53) (hd53 : d ≤ 2 ^ 53) :
    pattern (Float.ofNat a / Float.ofNat d) = encodeQuotient (a * unit) d := by
  obtain ⟨halt, hamag⟩ := magnitude_encode_mul_unit ha53
  obtain ⟨hdlt, hdmag⟩ := magnitude_encode_mul_unit hd53
  rw [← pattern_ofNat] at halt hamag hdlt hdmag
  exact toNat_pack_div_units (reads_float (Nat.le_of_lt halt)) (reads_float (Nat.le_of_lt hdlt)) halt hdlt hd hd53 hamag
    hdmag

theorem nonneg_ofNat (n : Nat) : Nonneg (Float.ofNat n) := by
  unfold Nonneg
  rw [pattern_ofNat]
  exact encode_le _

theorem pattern_ofNat_le {n k : Nat} (h : n ≤ k) : pattern (Float.ofNat n) ≤ pattern (Float.ofNat k) := by
  rw [pattern_ofNat, pattern_ofNat]
  exact encode_mono (Nat.mul_le_mul_right _ h)

theorem pattern_ofNat_lt {n : Nat} (h : n < 2 ^ 53) : pattern (Float.ofNat n) < infinityBits := by
  rw [pattern_ofNat]
  exact (magnitude_encode_mul_unit (Nat.le_of_lt h)).1

theorem magnitude_pattern_ofNat {n : Nat} (h : n ≤ 2 ^ 53) : magnitude (pattern (Float.ofNat n)) = n * unit := by
  rw [pattern_ofNat]
  exact (magnitude_encode_mul_unit h).2

theorem pos_of_positive_ofNat {w : Nat} (hw : Positive (Float.ofNat w)) : 0 < w := by
  rcases Nat.eq_zero_or_pos w with rfl | hpos
  · have hzero : pattern (Float.ofNat 0) = 0 := by rw [pattern_ofNat, Nat.zero_mul]; decide
    exact absurd hw.1 (by rw [hzero]; decide)
  · exact hpos

/-- **A weighted sum of whole numbers is rounded once**, if both parts are exact. -/
theorem pattern_ofNat_mul_add {w h g : Nat} (hw : Positive (Float.ofNat w)) (hle : w * h ≤ 2 ^ 53) (hg : g ≤ 2 ^ 53) :
    pattern (Float.ofNat w * Float.ofNat h + Float.ofNat g) = pattern (Float.ofNat (w * h + g)) := by
  have hprod : magnitude (pattern (Float.ofNat w * Float.ofNat h)) = w * h * unit := by
    rcases Nat.eq_zero_or_pos h with rfl | hh
    · rw [pattern_mul_zero hw (by rw [pattern_ofNat, Nat.zero_mul]; decide), Nat.mul_zero, Nat.zero_mul]
      rfl
    · have hwpos := pos_of_positive_ofNat hw
      have hwle : w ≤ w * h := Nat.le_mul_of_pos_right w hh
      have hhle : h ≤ w * h := Nat.le_mul_of_pos_left h hwpos
      rw [pattern_mul (pattern_ofNat w) (pattern_ofNat h) hwpos hh (by omega) (by omega)]
      exact (magnitude_encode_mul_unit hle).2
  rw [pattern_add (nonneg_mul hw (nonneg_ofNat h)) (nonneg_ofNat g), hprod, magnitude_pattern_ofNat hg,
    ← Nat.add_mul, pattern_ofNat]

/-! ## Whole numbers that may be too great -/

theorem le_magnitude_infinity {n : Nat} (h : n ≤ 2 ^ 53) : n * unit ≤ magnitude infinityBits := by
  rw [← (magnitude_encode_mul_unit h).2]
  exact magnitude_mono (encode_le _)

theorem min_le_magnitude_ofNat (n : Nat) : min n (2 ^ 53) * unit ≤ magnitude (pattern (Float.ofNat n)) := by
  rw [pattern_ofNat]
  exact le_magnitude_encode (Nat.min_le_right _ _) (Nat.mul_le_mul_right _ (Nat.min_le_left _ _))

theorem min_mul_le {a c w h b : Nat} (ha : min w b ≤ a) (hc : min h b ≤ c) (ha₀ : 0 < a) (hc₀ : 0 < c) :
    min (w * h) b ≤ a * c := by
  rcases Nat.le_total b w with hw | hw
  · rw [Nat.min_eq_right hw] at ha
    exact Nat.le_trans (Nat.min_le_right _ _) (Nat.le_trans ha (Nat.le_mul_of_pos_right a hc₀))
  · rcases Nat.le_total b h with hh | hh
    · rw [Nat.min_eq_right hh] at hc
      exact Nat.le_trans (Nat.min_le_right _ _) (Nat.le_trans hc (Nat.le_mul_of_pos_left c ha₀))
    · rw [Nat.min_eq_left hw] at ha
      rw [Nat.min_eq_left hh] at hc
      exact Nat.le_trans (Nat.min_le_left _ _) (Nat.mul_le_mul ha hc)

theorem min_le_magnitude_mul {w h : Nat} (hw : Positive (Float.ofNat w)) :
    min (w * h) (2 ^ 53) * unit ≤ magnitude (pattern (Float.ofNat w * Float.ofNat h)) := by
  have hwpos := pos_of_positive_ofNat hw
  rcases Nat.eq_zero_or_pos h with rfl | hh
  · rw [Nat.mul_zero, Nat.zero_min, Nat.zero_mul]
    exact Nat.zero_le _
  · rcases Nat.lt_or_eq_of_le (nonneg_ofNat h) with hlt | hinf
    · -- Both factors are rounded to whole numbers, and those are multiplied as they are.
      obtain ⟨a, hamag, ha⟩ := exists_magnitude_encode_mul_unit (pattern_ofNat w ▸ hw.2)
      obtain ⟨c, hcmag, hc⟩ := exists_magnitude_encode_mul_unit (pattern_ofNat h ▸ hlt)
      rw [← pattern_ofNat] at hamag hcmag
      have ha₀ : 0 < a := Nat.lt_of_lt_of_le (Nat.lt_min.2 ⟨hwpos, by decide⟩) ha
      have hc₀ : 0 < c := Nat.lt_of_lt_of_le (Nat.lt_min.2 ⟨hh, by decide⟩) hc
      have hprod : pattern (Float.ofNat w * Float.ofNat h) = encode (a * c * unit) :=
        toNat_pack_mul_units (reads_float (nonneg_ofNat w)) (reads_float (nonneg_ofNat h)) hw.2 hlt ha₀ hc₀ hamag hcmag
      rw [hprod]
      exact le_magnitude_encode (Nat.min_le_right _ _) (Nat.mul_le_mul_right _ (min_mul_le ha hc ha₀ hc₀))
    · rw [pattern_mul_infinity hw hinf]
      exact le_magnitude_infinity (Nat.min_le_right _ _)

/-- **A weighted sum of whole numbers is not rounded below any whole number up to `2^53`.** -/
theorem le_magnitude_ofNat_mul_add {n w h g : Nat} (hw : Positive (Float.ofNat w)) (hn : n ≤ 2 ^ 53)
    (hle : n ≤ w * h + g) : n * unit ≤ magnitude (pattern (Float.ofNat w * Float.ofNat h + Float.ofNat g)) := by
  rw [pattern_add (nonneg_mul hw (nonneg_ofNat h)) (nonneg_ofNat g)]
  refine le_magnitude_encode hn ?_
  calc n * unit ≤ (min (w * h) (2 ^ 53) + min g (2 ^ 53)) * unit := Nat.mul_le_mul_right _ (by omega)
    _ = min (w * h) (2 ^ 53) * unit + min g (2 ^ 53) * unit := Nat.add_mul _ _ _
    _ ≤ _ := Nat.add_le_add (min_le_magnitude_mul hw) (min_le_magnitude_ofNat g)

end Double
end GroundPlanner
