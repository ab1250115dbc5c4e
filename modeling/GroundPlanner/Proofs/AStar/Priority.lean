import GroundPlanner.Proofs.AStar.Run
import GroundPlanner.Proofs.Double.Arithmetic
/-!
# Priorities of nodes

The weight of a search is positive and finite, and no estimate is negative, so priorities are never NaNs and the
entries of the open list are ordered like them.  In every search a priority grows with the cost of the node
(`key_le_of_cost_le`); with a whole weight it is exact below `2^53`, and there the first node of the list is the one
that costs least with its estimate (`exists_of_key_le`).
-/
namespace GroundPlanner

open Double

/-- On doubles that are not negative, places in the total order compare like patterns. -/
theorem orderKey_le_iff {x y : Float} (hx : Nonneg x) (hy : Nonneg y) :
    orderKey x.toBits ≤ orderKey y.toBits ↔ pattern x ≤ pattern y := by
  have hx : pattern x < 0x8000000000000000 := Nat.lt_of_le_of_lt hx (by decide)
  have hy : pattern y < 0x8000000000000000 := Nat.lt_of_le_of_lt hy (by decide)
  unfold pattern at *
  rw [UInt64.le_iff_toNat_le, toNat_orderKey, toNat_orderKey, if_pos hx, if_pos hy]
  omega

theorem Cost.nonneg_toFloat (c : Cost) : Nonneg c.toFloat := by
  cases c with
  | finite n => exact nonneg_ofNat n
  | infinite => exact Nat.le_of_eq (by decide +kernel)

theorem Cost.pattern_infinite : pattern Cost.infinite.toFloat = infinityBits := by
  decide +kernel

namespace AStar

open Float.Model Float.Model.UnpackedFloat in
theorem positive_of_validWeight {w : Float} (h : validWeight w = true) : Positive w := by
  unfold validWeight at h
  rw [Bool.and_eq_true, decide_eq_true_eq] at h
  obtain ⟨hfin, hlt⟩ := h
  have hfin : w.toModel.unpack.isFinite = true := hfin
  have hlt : (0.0 : Float).toModel.unpack.lt w.toModel.unpack = true := of_decide_eq_true hlt
  have hzero : (0.0 : Float).toModel.unpack = .zero .positive :=
    unpack_zero (show pattern 0.0 = 0 by decide +kernel)
  rw [hzero] at hlt
  cases hu : w.toModel.unpack with
  | notANumber =>
    rw [hu] at hfin
    cases hfin
  | infinity s =>
    rw [hu] at hfin
    cases hfin
  | zero s =>
    rw [hu] at hlt
    cases hlt
  | finite s m e hm =>
    cases s with
    | negative =>
      rw [hu] at hlt
      cases hlt
    | positive => exact of_unpack_finite hu

theorem positive_of_check {a : AStar} {T : Termination} {p : Problem} (h : a.check T p = .ok ()) :
    Positive a.weight :=
  positive_of_validWeight (check_eq_ok_iff.1 h).2.1

namespace Setup

variable {s : Setup} {n m : Node}

theorem nonneg_priority {w : Float} (hw : Positive w) (hn : Nonneg n.estimate) : Nonneg (n.priority w) :=
  nonneg_add (nonneg_mul hw hn) (nonneg_ofNat _)

/-- **Of two nodes with the same estimate the cheaper comes first**, or they tie. -/
theorem key_le_of_cost_le {i j : Nat} (hw : Positive s.search.weight) (hn : Nonneg n.estimate)
    (hest : m.estimate = n.estimate) (hcost : n.cost ≤ m.cost) : (s.entry i n).priority ≤ (s.entry j m).priority := by
  have hm : Nonneg m.estimate := hest ▸ hn
  refine (orderKey_le_iff (nonneg_priority hw hn) (nonneg_priority hw hm)).2 ?_
  unfold Node.priority
  rw [hest]
  exact pattern_add_le (nonneg_mul hw hn) (nonneg_ofNat _) (nonneg_ofNat _) (pattern_ofNat_le hcost)

theorem pattern_priority_infinite {w : Float} (hw : Positive w) (hn : n.estimate = Cost.infinite.toFloat) :
    pattern (n.priority w) = infinityBits := by
  have hest : pattern n.estimate = infinityBits := hn ▸ Cost.pattern_infinite
  have hmul : pattern (w * n.estimate) = infinityBits := pattern_mul_infinity hw hest
  unfold Node.priority
  rw [pattern_add (Nat.le_of_eq hmul) (nonneg_ofNat _), hmul, encode_infinity_add]

theorem pattern_priority_finite {w h : Nat} (hw : Positive (Float.ofNat w)) (hn : n.estimate = (Cost.finite h).toFloat)
    (hest : w * h ≤ Cost.exactBound) (hcost : n.cost ≤ Cost.exactBound) :
    pattern (n.priority (Float.ofNat w)) = pattern (Float.ofNat (w * h + n.cost)) := by
  unfold Node.priority
  rw [hn]
  exact pattern_ofNat_mul_add hw hest hcost

/-- **A node is no dearer than one behind it whose priority is below `2^53`**; its estimate then is finite. -/
theorem exists_of_key_le {w i j : Nat} {c : Cost} {h : Nat} (hs : s.search.weight = Float.ofNat w)
    (hw : Positive (Float.ofNat w)) (hn : n.estimate = c.toFloat) (hm : m.estimate = (Cost.finite h).toFloat)
    (hmlt : w * h + m.cost < Cost.exactBound) (hle : (s.entry i n).priority ≤ (s.entry j m).priority) :
    ∃ k, c = .finite k ∧ w * k + n.cost ≤ w * h + m.cost := by
  have hnn : Nonneg n.estimate := hn ▸ Cost.nonneg_toFloat c
  have hmn : Nonneg m.estimate := hm ▸ Cost.nonneg_toFloat _
  have hle : pattern (n.priority (Float.ofNat w)) ≤ pattern (m.priority (Float.ofNat w)) := by
    refine (orderKey_le_iff (nonneg_priority hw hnn) (nonneg_priority hw hmn)).1 ?_
    rw [← hs]
    exact hle
  rw [pattern_priority_finite hw hm (by omega) (by omega)] at hle
  cases c with
  | infinite =>
    rw [pattern_priority_infinite hw hn] at hle
    exact absurd (pattern_ofNat_lt hmlt) (Nat.not_lt.2 hle)
  | finite k =>
    refine ⟨k, rfl, Nat.le_of_not_lt fun hlt => ?_⟩
    -- A dearer first node would have a priority one greater at least, rounded or not.
    have hone : (w * h + m.cost + 1) * unit ≤ magnitude (pattern (n.priority (Float.ofNat w))) := by
      unfold Node.priority
      rw [hn]
      exact le_magnitude_ofNat_mul_add hw hmlt hlt
    have hmag := Nat.le_trans hone (magnitude_mono hle)
    rw [magnitude_pattern_ofNat (Nat.le_of_lt hmlt)] at hmag
    exact absurd (Nat.le_of_mul_le_mul_right hmag unit_pos) (Nat.not_succ_le_self _)

end Setup
end AStar
end GroundPlanner
