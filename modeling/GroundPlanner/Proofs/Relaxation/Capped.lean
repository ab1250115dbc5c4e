import GroundPlanner.Proofs.Relaxation.Consistency
import Mathlib.Data.List.Perm.Basic
/-!
# Costs as far as they are exact

A capped cost is infinite from the bound on that sums are rounded.  Capped costs are combined without rounding
(`HeuristicKind.capped_combine`), so a capped total does not depend on the order of its facts
(`Labels.capped_total_perm`), and relaxing an operator does to capped costs what capped costs alone tell
(`Labels.capped_relax`).
-/
namespace GroundPlanner
namespace Cost

/-- The numbers below the bound; all others count as infinite. -/
noncomputable def cap (x : ℕ∞) : ℕ∞ :=
  if x < exactBound then x else ⊤

noncomputable def capped (c : Cost) : ℕ∞ :=
  cap c.value

theorem le_cap (x : ℕ∞) : x ≤ cap x := by
  unfold cap
  split
  · exact le_rfl
  · exact le_top

theorem cap_eq_top_iff {x : ℕ∞} : cap x = ⊤ ↔ (exactBound : ℕ∞) ≤ x := by
  unfold cap
  split
  · rename_i h
    exact iff_of_false (ne_top_of_lt h) (not_le.2 h)
  · rename_i h
    exact iff_of_true rfl (not_lt.1 h)

theorem cap_of_ne_top {x : ℕ∞} (h : cap x ≠ ⊤) : cap x = x :=
  if_pos (not_le.1 (fun hle => h (cap_eq_top_iff.2 hle)))

theorem cap_mono : Monotone cap := by
  intro x y h
  by_cases hy : cap y = ⊤
  · exact hy ▸ le_top
  · have hx : cap x ≠ ⊤ := fun hx => hy (cap_eq_top_iff.2 ((cap_eq_top_iff.1 hx).trans h))
    rw [cap_of_ne_top hx, cap_of_ne_top hy]
    exact h

theorem cap_cap_add (x y : ℕ∞) : cap (cap x + y) = cap (x + y) := by
  by_cases hx : cap x = ⊤
  · rw [hx, top_add, cap_eq_top_iff.2 le_top, eq_comm, cap_eq_top_iff]
    exact (cap_eq_top_iff.1 hx).trans le_self_add
  · rw [cap_of_ne_top hx]

theorem cap_add_cap (x y : ℕ∞) : cap (x + cap y) = cap (x + y) := by
  rw [AddCommMagma.add_comm, cap_cap_add, AddCommMagma.add_comm]

theorem capped_rounded (n : Nat) : (rounded n).capped = cap n := by
  by_cases h : n < exactBound
  · rw [rounded_of_lt h]
    rfl
  · have hn : exactBound ≤ n := Nat.le_of_not_lt h
    rw [capped, cap_eq_top_iff.2 (Nat.cast_le.2 hn), cap_eq_top_iff]
    calc (exactBound : ℕ∞) = (rounded exactBound).value := by decide +kernel
      _ ≤ (rounded n).value := value_rounded_mono hn

theorem capped_add (a b : Cost) : (a.add b).capped = cap (a.capped + b.capped) := by
  rw [capped, capped, capped, cap_add_cap, cap_cap_add]
  cases a with
  | infinite => rw [value_infinite, top_add]; rfl
  | finite m =>
    cases b with
    | infinite => rw [value_infinite, add_top]; rfl
    | finite n => exact (capped_rounded (m + n)).trans (congrArg cap (Nat.cast_add m n))

theorem capped_max (a b : Cost) : (a.max b).capped = Max.max a.capped b.capped := by
  rw [capped, value_max, cap_mono.map_max]
  rfl

/-- Costs are compared like their capped values, if one of these is not infinite. -/
theorem lt_iff_capped {a b : Cost} (h : min a.capped b.capped ≠ ⊤) : a.lt b = true ↔ a.capped < b.capped := by
  rw [lt_iff]
  refine ⟨fun hlt => ?_, fun hlt => lt_of_not_ge (fun hle => not_le.2 hlt (cap_mono hle))⟩
  have ha : a.capped ≠ ⊤ := fun ha => h (by
    rw [ha, min_eq_right le_top]
    exact top_le_iff.1 (ha ▸ cap_mono hlt.le))
  calc a.capped = a.value := cap_of_ne_top ha
    _ < b.value := hlt
    _ ≤ b.capped := le_cap _

end Cost

namespace HeuristicKind

variable {kind : HeuristicKind}

/-- How capped costs are combined. -/
noncomputable def join : HeuristicKind → ℕ∞ → ℕ∞ → ℕ∞
  | .max => Max.max
  | .additive | .fastForward => fun x y => Cost.cap (x + y)

theorem capped_combine (kind : HeuristicKind) (a b : Cost) :
    (kind.combine a b).capped = kind.join a.capped b.capped := by
  cases kind with
  | max => exact Cost.capped_max a b
  | additive => exact Cost.capped_add a b
  | fastForward => exact Cost.capped_add a b

theorem join_right_comm (kind : HeuristicKind) (x y z : ℕ∞) :
    kind.join (kind.join x y) z = kind.join (kind.join x z) y := by
  cases kind with
  | max => exact max_right_comm x y z
  | additive => simp only [join, Cost.cap_cap_add, add_right_comm x y z]
  | fastForward => simp only [join, Cost.cap_cap_add, add_right_comm x y z]

theorem le_join_left (kind : HeuristicKind) (x y : ℕ∞) : x ≤ kind.join x y := by
  cases kind with
  | max => exact le_max_left x y
  | additive => exact le_self_add.trans (Cost.le_cap _)
  | fastForward => exact le_self_add.trans (Cost.le_cap _)

theorem le_join_right (kind : HeuristicKind) (x y : ℕ∞) : y ≤ kind.join x y := by
  cases kind with
  | max => exact le_max_right x y
  | additive => exact le_add_self.trans (Cost.le_cap _)
  | fastForward => exact le_add_self.trans (Cost.le_cap _)

end HeuristicKind

namespace Labels

variable {kind : HeuristicKind} {l l' : Labels} {o : Operator} {fs gs : List FactId}

noncomputable def capped (l : Labels) (f : FactId) : ℕ∞ :=
  (l.cost f).capped

theorem lt_of_cost_ne_infinite {f : FactId} (h : l.cost f ≠ .infinite) : f < l.costs.size := by
  by_contra hge
  refine h ?_
  rw [cost, Array.getD_eq_getD_getElem?, Array.getElem?_eq_none (Nat.le_of_not_lt hge)]
  rfl

/-! ## Totals -/

theorem capped_foldl (kind : HeuristicKind) (l : Labels) (fs : List FactId) (c : Cost) :
    (fs.foldl (fun c f => kind.combine c (l.cost f)) c).capped =
      (fs.map l.capped).foldl kind.join c.capped := by
  induction fs generalizing c with
  | nil => rfl
  | cons f fs ih => rw [List.foldl_cons, ih, kind.capped_combine, List.map_cons, List.foldl_cons, capped]

theorem capped_total (kind : HeuristicKind) (l : Labels) (fs : List FactId) :
    (l.total kind fs).capped = (fs.map l.capped).foldl kind.join 0 := by
  rw [total_eq, capped_foldl, Cost.capped, Cost.value_zero, Cost.cap_of_ne_top]
  exact fun h => absurd (Cost.cap_eq_top_iff.1 h) (by decide +kernel)

/-- **A capped total depends on the capped costs, in any order.** -/
theorem capped_total_perm (h : (gs.map l'.capped).Perm (fs.map l.capped)) :
    (l'.total kind gs).capped = (l.total kind fs).capped := by
  rw [capped_total, capped_total]
  exact h.foldl_eq' (fun x _ y _ z => kind.join_right_comm z x y) 0

theorem capped_le_total {f : FactId} (hf : f ∈ fs) : l.capped f ≤ (l.total kind fs).capped := by
  have hfold : ∀ (xs : List ℕ∞) (x : ℕ∞), x ≤ xs.foldl kind.join x ∧ ∀ y ∈ xs, y ≤ xs.foldl kind.join x := by
    intro xs
    induction xs with
    | nil => exact fun x => ⟨le_rfl, fun _ h => absurd h List.not_mem_nil⟩
    | cons z zs ih =>
      intro x
      obtain ⟨hacc, hmem⟩ := ih (kind.join x z)
      refine ⟨(kind.le_join_left x z).trans hacc, fun y hy => ?_⟩
      rcases List.mem_cons.1 hy with rfl | hy
      · exact (kind.le_join_right x y).trans hacc
      · exact hmem y hy
  rw [capped_total]
  exact (hfold _ 0).2 _ (List.mem_map_of_mem hf)

theorem capped_offer (kind : HeuristicKind) (l : Labels) (o : Operator) :
    (l.offer kind o).capped = Cost.cap ((l.total kind o.pre).capped + 1) := by
  rw [offer, Cost.succ, Cost.capped_add, ← Cost.cap_add_cap _ 1]
  rfl

/-! ## Relaxing -/

theorem capped_relax (kind : HeuristicKind) (p : Labels × Bool) (o : Operator) (g : FactId) :
    (relax kind p o).1.capped g = if g ∈ o.add ∧ g < p.1.costs.size
      then min (p.1.offer kind o).capped (p.1.capped g) else p.1.capped g := by
  change Cost.cap ((relax kind p o).1.value g) = _
  rw [value_relax]
  split
  · exact Cost.cap_mono.map_min
  · rfl

theorem capped_relax_le (kind : HeuristicKind) (p : Labels × Bool) (o : Operator) (g : FactId) :
    (relax kind p o).1.capped g ≤ p.1.capped g :=
  Cost.cap_mono (value_relax_le kind p o g)

end Labels
end GroundPlanner
