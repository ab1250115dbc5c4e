import GroundPlanner.Heuristic.Relaxed
import GroundPlanner.Proofs.Relaxation.Cost
/-!
# What relaxing an operator does to the labels

Relaxing an operator lowers the facts that it adds to its offer, one more than the cost of its precondition, and
leaves all other costs alone (`value_relax`).  The offer grows with the costs (`value_offer_mono`) and is above those
of the precondition (`value_le_offer`), for each way of combining costs.
-/
namespace GroundPlanner

/-- How the costs of two facts are combined. -/
def HeuristicKind.combine : HeuristicKind → Cost → Cost → Cost
  | .max => Cost.max
  | .additive | .fastForward => Cost.add

namespace HeuristicKind

variable {kind : HeuristicKind} {a a' b b' : Cost}

theorem value_combine_mono (ha : a.value ≤ a'.value) (hb : b.value ≤ b'.value) :
    (kind.combine a b).value ≤ (kind.combine a' b').value := by
  cases kind with
  | max =>
    simp only [combine, Cost.value_max]
    exact max_le_max ha hb
  | additive => exact Cost.value_add_mono ha hb
  | fastForward => exact Cost.value_add_mono ha hb

theorem exact_combine (ha : a.Exact) (hb : b.Exact) : (kind.combine a b).Exact := by
  cases kind with
  | max => exact ha.max hb
  | additive => exact Cost.exact_add a b
  | fastForward => exact Cost.exact_add a b

theorem value_le_combine_left (ha : a.Exact) (b : Cost) : a.value ≤ (kind.combine a b).value := by
  cases kind with
  | max =>
    simp only [combine, Cost.value_max]
    exact le_max_left _ _
  | additive => exact Cost.value_le_add ha b
  | fastForward => exact Cost.value_le_add ha b

theorem value_le_combine_right (a : Cost) (hb : b.Exact) : b.value ≤ (kind.combine a b).value := by
  cases kind with
  | max =>
    simp only [combine, Cost.value_max]
    exact le_max_right _ _
  | additive => exact (Cost.value_le_add hb a).trans_eq (congrArg Cost.value (Cost.add_comm b a))
  | fastForward => exact (Cost.value_le_add hb a).trans_eq (congrArg Cost.value (Cost.add_comm b a))

end HeuristicKind

namespace Labels

def value (l : Labels) (f : FactId) : ℕ∞ :=
  (l.cost f).value

/-- What an operator offers to the facts that it adds. -/
def offer (kind : HeuristicKind) (l : Labels) (o : Operator) : Cost :=
  (l.total kind o.pre).succ

def Exact (l : Labels) : Prop :=
  ∀ f, (l.cost f).Exact

variable {kind : HeuristicKind} {l l' : Labels} {o : Operator}

/-! ## Totals -/

theorem total_eq (kind : HeuristicKind) (l : Labels) (fs : List FactId) :
    l.total kind fs = fs.foldl (fun c f => kind.combine c (l.cost f)) .zero := by
  cases kind <;> rfl

theorem value_foldl_mono {fs : List FactId} (h : ∀ f ∈ fs, l.value f ≤ l'.value f) {c c' : Cost}
    (hc : c.value ≤ c'.value) : (fs.foldl (fun c f => kind.combine c (l.cost f)) c).value ≤
      (fs.foldl (fun c f => kind.combine c (l'.cost f)) c').value := by
  induction fs generalizing c c' with
  | nil => exact hc
  | cons f fs ih =>
    have hf := h f List.mem_cons_self
    exact ih (fun g hg => h g (List.mem_cons_of_mem f hg)) (HeuristicKind.value_combine_mono hc hf)

theorem value_total_mono {fs : List FactId} (h : ∀ f ∈ fs, l.value f ≤ l'.value f) :
    (l.total kind fs).value ≤ (l'.total kind fs).value := by
  rw [total_eq, total_eq]
  exact value_foldl_mono h le_rfl

theorem value_le_foldl (hl : l.Exact) (fs : List FactId) {c : Cost} (hc : c.Exact) :
    c.value ≤ (fs.foldl (fun c f => kind.combine c (l.cost f)) c).value ∧
    ∀ f ∈ fs, l.value f ≤ (fs.foldl (fun c f => kind.combine c (l.cost f)) c).value := by
  induction fs generalizing c with
  | nil => exact ⟨le_rfl, fun _ h => by cases h⟩
  | cons f fs ih =>
    have hexact : (kind.combine c (l.cost f)).Exact := HeuristicKind.exact_combine hc (hl f)
    obtain ⟨hacc, hmem⟩ := ih hexact
    refine ⟨(HeuristicKind.value_le_combine_left hc _).trans hacc, fun g hg => ?_⟩
    rcases List.mem_cons.1 hg with rfl | hg
    · exact (HeuristicKind.value_le_combine_right c (hl g)).trans hacc
    · exact hmem g hg

theorem value_le_total (hl : l.Exact) {fs : List FactId} {f : FactId} (hf : f ∈ fs) :
    l.value f ≤ (l.total kind fs).value := by
  rw [total_eq]
  exact (value_le_foldl hl fs Cost.exact_zero).2 f hf

theorem exact_total (hl : l.Exact) (fs : List FactId) : (l.total kind fs).Exact := by
  rw [total_eq]
  exact List.foldlRecOn fs _ Cost.exact_zero (fun c hc f _ => HeuristicKind.exact_combine hc (hl f))

theorem value_total_eq_zero_iff (hl : l.Exact) {fs : List FactId} :
    (l.total kind fs).value = 0 ↔ ∀ f ∈ fs, l.value f = 0 := by
  refine ⟨fun h f hf => le_antisymm ((value_le_total hl hf).trans_eq h) zero_le, fun h => ?_⟩
  have hzero : l.total kind fs = .zero := by
    rw [total_eq]
    refine List.foldlRecOn (motive := fun c : Cost => c = .zero) fs _ rfl fun c hc f hf => ?_
    have hfree : (l.cost f).value = Cost.zero.value := h f hf
    rw [hc, Cost.value_injective hfree]
    cases kind <;> rfl
  rw [hzero, Cost.value_zero]

theorem value_offer_mono (h : ∀ f ∈ o.pre, l.value f ≤ l'.value f) : (l.offer kind o).value ≤ (l'.offer kind o).value :=
  Cost.value_succ_mono (value_total_mono h)

theorem value_le_offer (hl : l.Exact) {f : FactId} (hf : f ∈ o.pre) : l.value f ≤ (l.offer kind o).value :=
  (value_le_total hl hf).trans (Cost.value_le_add (exact_total hl _) _)

/-! ## Lowering -/

theorem getD_setIfInBounds {α : Type} (a : Array α) (f g : FactId) (c d : α) :
    (a.setIfInBounds f c).getD g d = if g = f ∧ f < a.size then c else a.getD g d := by
  simp only [Array.getD_eq_getD_getElem?, Array.getElem?_setIfInBounds]
  by_cases hfg : f = g
  · subst hfg
    by_cases hf : f < a.size
    · rw [if_pos rfl, if_pos hf, if_pos ⟨rfl, hf⟩, Option.getD_some]
    · rw [if_pos rfl, if_neg hf, if_neg (fun h => hf h.2), Array.getElem?_eq_none (Nat.le_of_not_lt hf)]
  · rw [if_neg hfg, if_neg (fun h => hfg h.1.symm)]

theorem cost_lower (o : Operator) (c : Cost) (p : Labels × Bool) (f g : FactId) :
    (lower o c p f).1.costs.size = p.1.costs.size ∧
    (lower o c p f).1.cost g =
      if g = f ∧ f < p.1.costs.size ∧ c.lt (p.1.cost f) = true then c else p.1.cost g := by
  unfold lower
  split
  · rename_i hlt
    refine ⟨Array.size_setIfInBounds, (getD_setIfInBounds _ _ _ _ _).trans ?_⟩
    refine if_congr ?_ rfl rfl
    rw [and_iff_left hlt]
  · rename_i hlt
    exact ⟨rfl, (if_neg (fun h => hlt h.2.2)).symm⟩

/-- Lowering several facts to one cost lowers each of them once. -/
theorem cost_foldl_lower (o : Operator) (c : Cost) (fs : List FactId) (p : Labels × Bool) (g : FactId) :
    (fs.foldl (lower o c) p).1.costs.size = p.1.costs.size ∧
    (fs.foldl (lower o c) p).1.cost g =
      if g ∈ fs ∧ g < p.1.costs.size ∧ c.lt (p.1.cost g) = true then c else p.1.cost g := by
  induction fs generalizing p with
  | nil => exact ⟨rfl, (if_neg (fun h => by cases h.1)).symm⟩
  | cons f fs ih =>
    obtain ⟨hsize, hcost⟩ := cost_lower o c p f g
    obtain ⟨hsize', hcost'⟩ := ih (lower o c p f)
    refine ⟨hsize'.trans hsize, ?_⟩
    by_cases hlow : g = f ∧ f < p.1.costs.size ∧ c.lt (p.1.cost f) = true
    · rw [List.foldl_cons, hcost', hcost, if_pos hlow, ite_self]
      obtain ⟨rfl, hg, hlt⟩ := hlow
      rw [if_pos ⟨List.mem_cons_self, hg, hlt⟩]
    · rw [List.foldl_cons, hcost', hsize, hcost, if_neg hlow]
      refine if_congr ?_ rfl rfl
      rw [List.mem_cons]
      constructor
      · rintro ⟨hg, h⟩
        exact ⟨.inr hg, h⟩
      · rintro ⟨rfl | hg, h⟩
        · exact absurd ⟨rfl, h⟩ hlow
        · exact ⟨hg, h⟩

/-- An operator out of reach offers nothing, so relaxing it is lowering like any other. -/
theorem relax_eq (kind : HeuristicKind) (p : Labels × Bool) (o : Operator) :
    relax kind p o = o.add.foldl (lower o (p.1.offer kind o)) p := by
  unfold relax offer
  split
  · rename_i htotal
    rw [htotal]
    exact (List.foldlRecOn (motive := fun q => q = p) o.add _ rfl (fun q hq f _ => hq ▸ rfl)).symm
  · rfl

theorem size_relax (kind : HeuristicKind) (p : Labels × Bool) (o : Operator) :
    (relax kind p o).1.costs.size = p.1.costs.size := by
  rw [relax_eq]
  exact (cost_foldl_lower o _ o.add p 0).1

/-- **Relaxing an operator lowers the facts it adds to its offer.** -/
theorem value_relax (kind : HeuristicKind) (p : Labels × Bool) (o : Operator) (g : FactId) :
    (relax kind p o).1.value g =
      if g ∈ o.add ∧ g < p.1.costs.size then min (p.1.offer kind o).value (p.1.value g) else p.1.value g := by
  unfold value
  rw [relax_eq, (cost_foldl_lower o _ o.add p g).2]
  by_cases hg : g ∈ o.add ∧ g < p.1.costs.size
  · rw [if_pos hg]
    by_cases hlt : (p.1.offer kind o).lt (p.1.cost g) = true
    · rw [if_pos ⟨hg.1, hg.2, hlt⟩, min_eq_left (Cost.lt_iff.1 hlt).le]
    · rw [if_neg (fun h => hlt h.2.2), min_eq_right (not_lt.1 (fun h => hlt (Cost.lt_iff.2 h)))]
  · rw [if_neg hg, if_neg (fun h => hg ⟨h.1, h.2.1⟩)]

theorem value_relax_le (kind : HeuristicKind) (p : Labels × Bool) (o : Operator) (g : FactId) :
    (relax kind p o).1.value g ≤ p.1.value g := by
  rw [value_relax]
  split
  · exact min_le_right _ _
  · exact le_rfl

theorem exact_relax (kind : HeuristicKind) {p : Labels × Bool} (hp : p.1.Exact) (o : Operator) :
    (relax kind p o).1.Exact := by
  intro g
  rw [relax_eq, (cost_foldl_lower o _ o.add p g).2]
  split
  · exact Cost.exact_add _ _
  · exact hp g

end Labels
end GroundPlanner
