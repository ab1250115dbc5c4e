import GroundPlanner.Proofs.Double.Pattern
/-!
# Rounding in the model of doubles

The model of doubles shifts a mantissa to the right bit by bit, keeps the round bit and whether a bit was lost below
it, and rounds at the end.  All of that is one rounded quotient (`Tells.roundedMantissa`), so that packing a rounded
positive number is `encode` of its units (`pack_roundWithAccuracy`, `pack_round`), and packing the quotient of two
numbers `encodeQuotient` of theirs (`pack_roundWithAccuracy_div`).
-/
namespace GroundPlanner
namespace Double

open Float.Model Float.Model.UnpackedFloat

/-! ## Shifting -/

/-- **What a mantissa and its two bits tell of a quotient**: its whole part, whether the rest is a half at least, and
whether the rest is neither nothing nor a half. -/
structure Tells (em : ExtendedMantissa) (num den : Nat) : Prop where
  mantissa : em.mantissa = num / den
  roundBit : em.roundBit = true ↔ den ≤ 2 * (num % den)
  stickyBit : em.stickyBit = true ↔ num % den ≠ 0 ∧ 2 * (num % den) ≠ den

section Tells

variable {em : ExtendedMantissa} {num den : Nat}

theorem tells_div (num : Nat) (hden : 0 < den) :
    Tells (.ofMantissaAndAccuracy (num / den) (accuracyOfFraction (num % den) den)) num den := by
  unfold accuracyOfFraction
  split
  · rename_i hrest
    exact ⟨rfl, iff_of_false nofun (by omega), iff_of_false nofun (fun h => h.1 hrest)⟩
  · rename_i hrest
    rcases Nat.lt_trichotomy (2 * (num % den)) den with hlt | heq | hgt
    · rw [Nat.compare_eq_lt.2 hlt]
      exact ⟨rfl, iff_of_false nofun (by omega), iff_of_true rfl ⟨hrest, by omega⟩⟩
    · rw [Nat.compare_eq_eq.2 heq]
      exact ⟨rfl, iff_of_true rfl (by omega), iff_of_false nofun (fun h => h.2 heq)⟩
    · rw [Nat.compare_eq_gt.2 hgt]
      exact ⟨rfl, iff_of_true rfl (by omega), iff_of_true rfl ⟨hrest, by omega⟩⟩

namespace Tells

/-- A shift halves the quotient. -/
theorem shiftRightOne (h : Tells em num den) (hden : 0 < den) : Tells em.shiftRightOne num (den * 2) := by
  have hlt : num % den < den := Nat.mod_lt _ hden
  have hmod : num % (den * 2) = num % den + den * (num / den % 2) := Nat.mod_mul
  have hbit : num / den % 2 = 0 ∨ num / den % 2 = 1 := by omega
  refine ⟨?_, ?_, ?_⟩ <;>
    simp only [ExtendedMantissa.shiftRightOne, Bool.or_eq_true, bne_iff_ne, h.mantissa, h.roundBit, h.stickyBit, hmod]
  · exact Nat.div_div_eq_div_mul num den 2
  · rcases hbit with hb | hb <;> rw [hb] <;> omega
  · rcases hbit with hb | hb <;> rw [hb] <;> omega

theorem shift (h : Tells em num den) (hden : 0 < den) (s : Nat) : Tells (em >>> s) num (den * 2 ^ s) := by
  change Tells (Nat.repeat ExtendedMantissa.shiftRightOne s em) num (den * 2 ^ s)
  induction s with
  | zero =>
    rw [Nat.pow_zero, Nat.mul_one]
    exact h
  | succ s ih =>
    rw [Nat.pow_succ, ← Nat.mul_assoc]
    exact ih.shiftRightOne (Nat.mul_pos hden (Nat.two_pow_pos s))

/-- **Rounding what is told of a quotient is one rounded quotient.** -/
theorem roundedMantissa (h : Tells em num den) (hden : 0 < den) : em.roundedMantissa = roundQuotient num den := by
  obtain ⟨m, r, t⟩ := em
  obtain ⟨hm, hr, ht⟩ := h
  simp only at hm hr ht
  subst hm
  unfold roundQuotient
  cases r <;> cases t <;>
    simp only [Bool.false_eq_true, false_iff, true_iff, ExtendedMantissa.roundedMantissa, ExtendedMantissa.accuracy,
      Accuracy.roundToNearestEven] at hr ht ⊢ <;>
    split_ifs <;> omega

end Tells
end Tells

/-! ## Patterns -/

theorem toNat_packComponents (e : BitVec 11) (f : BitVec 52) :
    (packComponents Format.binary64 .positive e f).toNat = e.toNat * 2 ^ 52 + f.toNat := by
  change ((0#1 ++ e) ++ f).toNat = _
  rw [BitVec.toNat_append, ← Nat.shiftLeft_add_eq_or_of_lt f.isLt, Nat.shiftLeft_eq, BitVec.toNat_append]
  simp

theorem toNat_packedInfinity : (packedInfinity Format.binary64 .positive).toNat = infinityBits := by
  decide

/-- **The pattern of `q` units of place `k`**, if `q` has 53 bits or `k` is the last place of all. -/
theorem toNat_pack {q k : Nat} (hq : 0 < q) (hlt : q < 2 ^ 53) (hge : 0 < k → 2 ^ 52 ≤ q) :
    (pack Format.binary64 (.finite .positive q ((k : Int) - 1074) hq)).toNat =
      min infinityBits (k * 2 ^ 52 + q) := by
  have hbias : ((k : Int) - 1074 + (Format.binary64.exponentBias : Nat) +
      (Format.binary64.mantissaBitsWithoutImplicit : Nat)).toNat = k + 1 := by
    change ((k : Int) - 1074 + (1023 : Nat) + (52 : Nat)).toNat = k + 1
    omega
  unfold UnpackedFloat.pack
  simp only [hbias]
  split
  · rename_i hbig
    have hbig : 2 ^ 11 ≤ k + 1 + 1 := hbig
    rw [toNat_packedInfinity, Nat.min_eq_left]
    unfold infinityBits
    omega
  · rename_i hsmall
    have hsmall : ¬ 2 ^ 11 ≤ k + 1 + 1 := hsmall
    have hmin : min infinityBits (k * 2 ^ 52 + q) = k * 2 ^ 52 + q := by
      refine Nat.min_eq_right ?_
      unfold infinityBits
      omega
    have hlog : q.log2 + 1 = Format.binary64.mantissaBits ↔ 2 ^ 52 ≤ q := by
      rw [← Nat.le_log2 (Nat.ne_of_gt hq)]
      have := (Nat.log2_lt (Nat.ne_of_gt hq)).2 hlt
      change q.log2 + 1 = 53 ↔ _
      omega
    rw [hmin]
    split
    · rename_i hnormal
      have hnormal : 2 ^ 52 ≤ q := hlog.1 hnormal
      rw [toNat_packComponents, BitVec.toNat_ofNat, BitVec.toNat_ofNat]
      omega
    · rename_i hsub
      have hsub : ¬ 2 ^ 52 ≤ q := fun h => hsub (hlog.2 h)
      rw [toNat_packComponents, BitVec.toNat_ofNat]
      change 0 * 2 ^ 52 + q % 2 ^ 52 = _
      omega

/-! ## Rounding -/

/-- The exponent that a number is rounded to is that of its last place. -/
theorem targetExponent_eq {m : Nat} (h : 0 < m) (j : Nat) :
    Format.binary64.targetExponent (totalExponent m ((j : Int) - 1074)) = (lastPlace (m * 2 ^ j) : Int) - 1074 := by
  rw [lastPlace, log2_mul_two_pow h]
  change max ((m.log2 : Int) + 1 + ((j : Int) - 1074) - (53 : Nat)) (-1074) = _
  omega

theorem finite_congr {s : Sign} {m m' : Nat} {e e' : Int} {h : 0 < m} (hm : m = m') (he : e = e') (h' : 0 < m') :
    finite s m e h = finite s m' e' h' := by
  subst hm he
  rfl

theorem shiftToTargetExponent_eq {m j : Nat} (h : 0 < m) (hj : j ≤ lastPlace (m * 2 ^ j)) (acc : Accuracy) :
    shiftToTargetExponent Format.binary64 m ((j : Int) - 1074) acc =
      (ExtendedMantissa.ofMantissaAndAccuracy m acc >>> (lastPlace (m * 2 ^ j) - j),
        (lastPlace (m * 2 ^ j) : Int) - 1074) := by
  have hshift : ((lastPlace (m * 2 ^ j) : Int) - 1074 - ((j : Int) - 1074)).toNat = lastPlace (m * 2 ^ j) - j := by
    omega
  have hexp : (j : Int) - 1074 + (lastPlace (m * 2 ^ j) - j : Nat) = (lastPlace (m * 2 ^ j) : Int) - 1074 := by omega
  unfold shiftToTargetExponent shiftToExponent
  rw [targetExponent_eq h]
  dsimp only
  rw [hshift, hexp]

/-- What the second shift leaves of a rounded mantissa. -/
theorem mantissa_shift (m s : Nat) :
    (ExtendedMantissa.ofMantissaAndAccuracy m .exact >>> s).mantissa = m / 2 ^ s := by
  have htells := (tells_div m Nat.one_pos).shift Nat.one_pos s
  rw [Nat.div_one, Nat.mod_one, Nat.one_mul] at htells
  exact htells.mantissa

/-- Rounding shifts twice: the first time to round, the second time because rounding may carry. -/
theorem roundWithAccuracy_eq {m r q : Nat} {e e₁ e₂ : Int} {em em' : ExtendedMantissa} {acc : Accuracy}
    (h₁ : shiftToTargetExponent Format.binary64 m e acc = (em, e₁)) (hr : em.roundedMantissa = r)
    (h₂ : shiftToTargetExponent Format.binary64 r e₁ .exact = (em', e₂)) (hm : em'.mantissa = q) (hq : 0 < q) :
    roundWithAccuracy Format.binary64 .positive m e acc = .finite .positive q e₂ hq := by
  subst hr hm
  unfold roundWithAccuracy
  rw [h₁]
  dsimp only
  rw [h₂]
  exact dif_neg (Nat.ne_of_gt hq)

/-- **Rounding a quotient and packing it is `encodeQuotient`**, unless bits are missing on the right. -/
theorem pack_roundWithAccuracy_div {n d j : Nat} (hd : 0 < d) (h : 0 < n / d) (hj : j ≤ lastPlace (n / d * 2 ^ j)) :
    (pack Format.binary64 (roundWithAccuracy Format.binary64 .positive (n / d) ((j : Int) - 1074)
      (accuracyOfFraction (n % d) d))).toNat = encodeQuotient (n * 2 ^ j) d := by
  have hplace := lastPlace_mul_two_pow_div h j
  have hle := quotient_mantissa_le (n * 2 ^ j) d
  have hge := le_quotient_mantissa (v := n * 2 ^ j) (d := d)
  have hpos := quotient_mantissa_pos (v := n * 2 ^ j) (d := d) (by
    rw [Nat.div_pos_iff] at h ⊢
    exact ⟨h.1, Nat.le_trans h.2 (Nat.le_mul_of_pos_right n (Nat.two_pow_pos j))⟩)
  have hfirst := shiftToTargetExponent_eq h hj (accuracyOfFraction (n % d) d)
  have hquot : roundQuotient n (d * 2 ^ (lastPlace (n / d * 2 ^ j) - j)) =
      roundQuotient (n * 2 ^ j) (d * 2 ^ lastPlace (n / d * 2 ^ j)) := by
    rw [← roundQuotient_mul_right n _ (Nat.two_pow_pos j), Nat.mul_assoc, ← Nat.pow_add, Nat.sub_add_cancel hj]
  unfold encodeQuotient
  rw [hplace] at hle hge hpos ⊢
  generalize lastPlace (n / d * 2 ^ j) = k at *
  generalize roundQuotient (n * 2 ^ j) (d * 2 ^ k) = q at *
  have hround := (((tells_div n hd).shift hd (k - j)).roundedMantissa
    (Nat.mul_pos hd (Nat.two_pow_pos _))).trans hquot
  rcases Nat.lt_or_eq_of_le hle with hlt | rfl
  · have hk : lastPlace (q * 2 ^ k) = k := lastPlace_canonical hlt hge
    have hsecond := shiftToTargetExponent_eq hpos (Nat.le_of_eq hk.symm) .exact
    have hm : (ExtendedMantissa.ofMantissaAndAccuracy q .exact >>> (lastPlace (q * 2 ^ k) - k)).mantissa = q := by
      rw [mantissa_shift, hk, Nat.sub_self, Nat.pow_zero, Nat.div_one]
    rw [roundWithAccuracy_eq hfirst hround hsecond hm hpos, hk]
    exact toNat_pack hpos hlt hge
  · -- Rounding carried into a further bit; the mantissa is halved.
    have hk : lastPlace (2 ^ 53 * 2 ^ k) = k + 1 := by
      rw [lastPlace, log2_mul_two_pow hpos, Nat.log2_two_pow]
      omega
    have hsecond := shiftToTargetExponent_eq hpos (Nat.le_trans (Nat.le_succ k) (Nat.le_of_eq hk.symm)) .exact
    have hm : (ExtendedMantissa.ofMantissaAndAccuracy (2 ^ 53) .exact >>>
        (lastPlace (2 ^ 53 * 2 ^ k) - k)).mantissa = 2 ^ 52 := by
      rw [mantissa_shift, hk, Nat.add_sub_cancel_left]
      decide
    have hcarry : (k + 1) * 2 ^ 52 + 2 ^ 52 = k * 2 ^ 52 + 2 ^ 53 := by omega
    rw [roundWithAccuracy_eq hfirst hround hsecond hm (by decide), hk]
    rw [toNat_pack _ (by decide) (fun _ => Nat.le_refl _), hcarry]

/-- **Rounding a positive number and packing it is `encode`**, unless bits are missing on the right. -/
theorem pack_roundWithAccuracy {m j : Nat} (h : 0 < m) (hj : j ≤ lastPlace (m * 2 ^ j)) :
    (pack Format.binary64 (roundWithAccuracy Format.binary64 .positive m ((j : Int) - 1074) .exact)).toNat =
      encode (m * 2 ^ j) := by
  rw [← encodeQuotient_one, ← pack_roundWithAccuracy_div Nat.one_pos (by rwa [Nat.div_one]) (by rwa [Nat.div_one]),
    Nat.div_one, Nat.mod_one]
  rfl

/-- Bits that are missing on the right are zeros. -/
theorem pack_round {m : Nat} (h : 0 < m) (j : Nat) :
    (pack Format.binary64 (UnpackedFloat.round Format.binary64 .positive m ((j : Int) - 1074))).toNat =
      encode (m * 2 ^ j) := by
  unfold UnpackedFloat.round decreaseExponent
  simp only [targetExponent_eq h]
  have hm : m <<< (j - lastPlace (m * 2 ^ j)) * 2 ^ min j (lastPlace (m * 2 ^ j)) = m * 2 ^ j := by
    have hsum : j - lastPlace (m * 2 ^ j) + min j (lastPlace (m * 2 ^ j)) = j := by omega
    rw [Nat.shiftLeft_eq, Nat.mul_assoc, ← Nat.pow_add, hsum]
  generalize hk : lastPlace (m * 2 ^ j) = k at *
  have hshift : ((j : Int) - 1074 - ((k : Int) - 1074)).toNat = j - k := by omega
  have he : (j : Int) - 1074 - (j - k : Nat) = (min j k : Nat) - 1074 := by omega
  rw [hshift, he, pack_roundWithAccuracy, hm]
  · rw [Nat.shiftLeft_eq]
    exact Nat.mul_pos h (Nat.two_pow_pos _)
  · rw [hm, hk]
    exact Nat.min_le_right _ _

theorem pack_normalize (m j : Nat) :
    (pack Format.binary64 (UnpackedFloat.normalize Format.binary64 m ((j : Int) - 1074) .positive)).toNat =
      encode (m * 2 ^ j) := by
  unfold UnpackedFloat.normalize
  rcases Nat.eq_zero_or_pos m with rfl | hm
  · have hcmp : compare ((0 : Nat) : Int) 0 = .eq := rfl
    rw [hcmp, Nat.zero_mul]
    change (pack Format.binary64 (.zero .positive)).toNat = encode 0
    decide
  · have hcmp : compare (m : Int) 0 = .gt := Int.compare_eq_gt.2 (by omega)
    rw [hcmp]
    exact pack_round hm j

/-! ## Reading patterns -/

theorem toNat_unpackMantissa (b : BitVec 64) :
    (@unpackMantissa Format.binary64 b).toNat = b.toNat % 2 ^ 52 := by
  change (b.extractLsb 51 0).toNat = _
  rw [BitVec.extractLsb_toNat]
  rfl

theorem toNat_unpackExponent (b : BitVec 64) :
    (@unpackExponent Format.binary64 b).toNat = b.toNat / 2 ^ 52 % 2 ^ 11 := by
  change (b.extractLsb 62 52).toNat = _
  rw [BitVec.extractLsb_toNat, Nat.shiftRight_eq_div_pow]

theorem unpackSign_of_lt {b : BitVec 64} (h : b.toNat < 2 ^ 63) :
    Sign.ofBitVec (@unpackSign Format.binary64 b) = .positive := by
  have hz : @unpackSign Format.binary64 b = 0#1 := by
    apply BitVec.eq_of_toNat_eq
    change (b.extractLsb 63 63).toNat = 0
    rw [BitVec.extractLsb_toNat, Nat.shiftRight_eq_div_pow]
    omega
  rw [hz]
  rfl

theorem unpack_zero {b : BitVec 64} (h : b.toNat = 0) : unpack Format.binary64 b = .zero .positive := by
  obtain rfl : b = 0#64 := BitVec.eq_of_toNat_eq h
  rfl

/-- The exponent of a number that is neither negative nor infinite. -/
theorem unpackExponent_of_lt {b : BitVec 64} (h : b.toNat < infinityBits) :
    (@unpackExponent Format.binary64 b).toNat = b.toNat / 2 ^ 52 ∧ ¬ @unpackExponent Format.binary64 b = -1#_ := by
  have he := toNat_unpackExponent b
  have hbound : b.toNat / 2 ^ 52 < 2047 := by unfold infinityBits at h; omega
  rw [Nat.mod_eq_of_lt (by omega)] at he
  refine ⟨he, fun hall => ?_⟩
  rw [hall] at he
  change 2047 = _ at he
  omega

theorem unpack_subnormal {b : BitVec 64} (hpos : 0 < b.toNat) (hlt : b.toNat < 2 ^ 52) :
    unpack Format.binary64 b = .finite .positive b.toNat ((0 : Nat) - 1074) hpos := by
  have hm := toNat_unpackMantissa b
  obtain ⟨he, hne⟩ := unpackExponent_of_lt (b := b) (by unfold infinityBits; omega)
  rw [Nat.div_eq_of_lt hlt] at he
  have hz : @unpackExponent Format.binary64 b = 0#_ := BitVec.eq_of_toNat_eq he
  have hf : ¬ @unpackMantissa Format.binary64 b = 0#_ := by
    intro h
    rw [h] at hm
    change 0 = _ at hm
    omega
  have hval : (@unpackMantissa Format.binary64 b).toNat = b.toNat := by omega
  have hexp : ((@unpackExponent Format.binary64 b).toNat : Int) - (Format.binary64.exponentBias +
      Format.binary64.mantissaBitsWithoutImplicit) + 1 = ((0 : Nat) : Int) - 1074 := by
    rw [he]
    rfl
  unfold UnpackedFloat.unpack
  dsimp only
  rw [unpackSign_of_lt (by omega), if_neg hne, if_pos hz, dif_neg hf, finite_congr hval hexp hpos]

theorem unpack_normal {b : BitVec 64} (hge : 2 ^ 52 ≤ b.toNat) (hlt : b.toNat < infinityBits) :
    unpack Format.binary64 b =
      .finite .positive (2 ^ 52 + b.toNat % 2 ^ 52) ((b.toNat / 2 ^ 52 - 1 : Nat) - 1074) (by omega) := by
  have hm := toNat_unpackMantissa b
  obtain ⟨he, hne⟩ := unpackExponent_of_lt hlt
  have hz : ¬ @unpackExponent Format.binary64 b = 0#_ := by
    intro h
    rw [h] at he
    change 0 = _ at he
    omega
  have happend : (1#1 ++ @unpackMantissa Format.binary64 b).toNat = 2 ^ 52 + b.toNat % 2 ^ 52 := by
    rw [BitVec.toNat_append, ← Nat.shiftLeft_add_eq_or_of_lt (@unpackMantissa Format.binary64 b).isLt, hm]
    rfl
  have hexp : ((@unpackExponent Format.binary64 b).toNat : Int) - (Format.binary64.exponentBias +
      Format.binary64.mantissaBitsWithoutImplicit) = (b.toNat / 2 ^ 52 - 1 : Nat) - 1074 := by
    rw [he]
    change ((b.toNat / 2 ^ 52 : Nat) : Int) - ((1023 : Nat) + (52 : Nat)) = _
    omega
  unfold UnpackedFloat.unpack
  dsimp only
  rw [unpackSign_of_lt (by unfold infinityBits at hlt; omega), if_neg hne, if_neg hz,
    finite_congr happend hexp (by omega)]

/-- **What is read off a pattern** that is neither negative nor a NaN. -/
inductive Reads : Nat → UnpackedFloat → Prop where
  | zero : Reads 0 (.zero .positive)
  | finite {b m j : Nat} (h : 0 < m) (hb : b < infinityBits) (hmag : magnitude b = m * 2 ^ j) (hlt : m < 2 ^ 53)
      (hge : 0 < j → 2 ^ 52 ≤ m) : Reads b (.finite .positive m ((j : Int) - 1074) h)
  | infinity : Reads infinityBits (.infinity .positive)

theorem reads_finite {b : BitVec 64} (hpos : 0 < b.toNat) (hlt : b.toNat < infinityBits) :
    Reads b.toNat (unpack Format.binary64 b) := by
  rcases Nat.lt_or_ge b.toNat (2 ^ 52) with hsub | hnormal
  · have hmag : magnitude b.toNat = b.toNat * 2 ^ 0 := by
      rw [magnitude_of_lt hsub, Nat.pow_zero, Nat.mul_one]
    rw [unpack_subnormal hpos hsub]
    exact .finite hpos hlt hmag (by omega) (fun h => absurd h (Nat.lt_irrefl 0))
  · have hmag : magnitude b.toNat = (2 ^ 52 + b.toNat % 2 ^ 52) * 2 ^ (b.toNat / 2 ^ 52 - 1) := by
      rw [magnitude, if_neg (Nat.not_lt.2 hnormal)]
    rw [unpack_normal hnormal hlt]
    exact .finite _ hlt hmag (by omega) (fun _ => by omega)

theorem reads {b : BitVec 64} (h : b.toNat ≤ infinityBits) : Reads b.toNat (unpack Format.binary64 b) := by
  rcases Nat.eq_zero_or_pos b.toNat with hz | hpos
  · rw [unpack_zero hz, hz]
    exact .zero
  · rcases Nat.lt_or_eq_of_le h with hlt | heq
    · exact reads_finite hpos hlt
    · obtain rfl : b = BitVec.ofNat 64 infinityBits := BitVec.eq_of_toNat_eq (heq.trans rfl)
      exact .infinity

/-- Only the patterns between zero and infinity read as positive finite numbers. -/
theorem of_unpack_finite {b : BitVec 64} {m : Nat} {e : Int} {h : 0 < m}
    (hu : unpack Format.binary64 b = .finite .positive m e h) : 0 < b.toNat ∧ b.toNat < infinityBits := by
  have hpos : 0 < b.toNat := by
    rcases Nat.eq_zero_or_pos b.toNat with hz | hpos
    · rw [unpack_zero hz] at hu
      cases hu
    · exact hpos
  have he := toNat_unpackExponent b
  unfold UnpackedFloat.unpack at hu
  dsimp only at hu
  by_cases hall : @unpackExponent Format.binary64 b = -1#_
  · rw [if_pos hall] at hu
    by_cases hz : @unpackMantissa Format.binary64 b = 0#_
    · rw [if_pos hz] at hu
      cases hu
    · rw [if_neg hz] at hu
      cases hu
  · rw [if_neg hall] at hu
    have hexp : b.toNat / 2 ^ 52 % 2 ^ 11 ≠ 2047 := fun h => hall (BitVec.eq_of_toNat_eq (he.trans h))
    have hsign : Sign.ofBitVec (@unpackSign Format.binary64 b) = .positive := by
      by_cases hz : @unpackExponent Format.binary64 b = 0#_
      · rw [if_pos hz] at hu
        by_cases hf : @unpackMantissa Format.binary64 b = 0#_
        · rw [dif_pos hf] at hu
          cases hu
        · rw [dif_neg hf] at hu
          exact (UnpackedFloat.finite.inj hu).1
      · rw [if_neg hz] at hu
        exact (UnpackedFloat.finite.inj hu).1
    have hbit : @unpackSign Format.binary64 b = 0#1 := by
      unfold Sign.ofBitVec at hsign
      split at hsign
      · assumption
      · cases hsign
    have hlow : b.toNat / 2 ^ 63 % 2 = 0 := by
      have htoNat : (b.extractLsb 63 63).toNat = 0 := congrArg BitVec.toNat hbit
      rwa [BitVec.extractLsb_toNat, Nat.shiftRight_eq_div_pow] at htoNat
    have hb := b.isLt
    unfold infinityBits
    exact ⟨hpos, by omega⟩

end Double
end GroundPlanner
