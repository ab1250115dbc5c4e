import GroundPlanner.Proofs.Relaxation.Capped
import Mathlib.Logic.Function.Iterate
/-!
# The operators that support the facts

The operator that last lowered the cost of a fact is its supporter.  As long as the capped cost of the fact is not
infinite, its supporter is fixed by capped costs too (`Labels.supporter_relax`), and the preconditions of its supporter
are not infinite either (`Labels.Supported`).  When every offer is met, more passes change no label
(`Relaxation.labels_eq_iterate`).
-/
namespace GroundPlanner
namespace Labels

variable {kind : HeuristicKind} {s : State} {l l' : Labels} {o : Operator} {n : Nat}

/-- **Labels of `n` facts** in which the preconditions of a supporter are as good as what it supports. -/
structure Supported (n : Nat) (l : Labels) : Prop where
  size_eq : l.costs.size = n
  size_eq' : l.supporters.size = n
  pre : ∀ f o, l.capped f ≠ ⊤ → l.supporter f = some o → ∀ g ∈ o.pre, l.capped g ≠ ⊤

theorem Supported.sizes (h : l.Supported n) : l.supporters.size = l.costs.size :=
  h.size_eq'.trans h.size_eq.symm

theorem supporter_lower (o : Operator) (c : Cost) {p : Labels × Bool} (hp : p.1.supporters.size = p.1.costs.size)
    (f g : FactId) : (lower o c p f).1.supporters.size = p.1.supporters.size ∧
      (lower o c p f).1.supporter g =
        if g = f ∧ f < p.1.costs.size ∧ c.lt (p.1.cost f) = true then some o else p.1.supporter g := by
  unfold lower
  split
  · rename_i hlt
    refine ⟨Array.size_setIfInBounds, (getD_setIfInBounds _ _ _ _ _).trans ?_⟩
    rw [hp]
    exact if_congr (and_congr_right (fun _ => (and_iff_left hlt).symm)) rfl rfl
  · rename_i hlt
    exact ⟨rfl, (if_neg (fun h => hlt h.2.2)).symm⟩

theorem supporter_foldl_lower (o : Operator) (c : Cost) (fs : List FactId) {p : Labels × Bool}
    (hp : p.1.supporters.size = p.1.costs.size) (g : FactId) :
    (fs.foldl (lower o c) p).1.supporters.size = p.1.supporters.size ∧
    (fs.foldl (lower o c) p).1.supporter g =
      if g ∈ fs ∧ g < p.1.costs.size ∧ c.lt (p.1.cost g) = true then some o else p.1.supporter g := by
  induction fs generalizing p with
  | nil => exact ⟨rfl, (if_neg (fun h => by cases h.1)).symm⟩
  | cons f fs ih =>
    obtain ⟨hsize, hsupp⟩ := supporter_lower o c hp f g
    obtain ⟨hcosts, hcost⟩ := cost_lower o c p f g
    obtain ⟨hsize', hsupp'⟩ := ih (p := lower o c p f) (hsize.trans (hp.trans hcosts.symm))
    refine ⟨hsize'.trans hsize, ?_⟩
    rw [List.foldl_cons, hsupp', hsupp, hcosts, hcost]
    by_cases hlow : g = f ∧ f < p.1.costs.size ∧ c.lt (p.1.cost f) = true
    · rw [if_pos hlow, if_pos hlow, ite_self]
      obtain ⟨rfl, hg, hlt⟩ := hlow
      rw [if_pos ⟨List.mem_cons_self, hg, hlt⟩]
    · rw [if_neg hlow, if_neg hlow]
      refine if_congr ⟨fun h => ⟨List.mem_cons_of_mem f h.1, h.2⟩, ?_⟩ rfl rfl
      rintro ⟨hg, h⟩
      rcases List.mem_cons.1 hg with rfl | hg
      · exact absurd ⟨rfl, h⟩ hlow
      · exact ⟨hg, h⟩

theorem size_supporters_relax (kind : HeuristicKind) {p : Labels × Bool}
    (hp : p.1.supporters.size = p.1.costs.size) (o : Operator) :
    (relax kind p o).1.supporters.size = p.1.supporters.size := by
  rw [relax_eq]
  exact (supporter_foldl_lower o _ o.add hp 0).1

theorem sizes_relax (kind : HeuristicKind) {p : Labels × Bool} (hp : p.1.supporters.size = p.1.costs.size)
    (o : Operator) : (relax kind p o).1.supporters.size = (relax kind p o).1.costs.size :=
  (size_supporters_relax kind hp o).trans (hp.trans (size_relax kind p o).symm)

/-- **An operator supports the facts that it lowers**, as far as capped costs tell. -/
theorem supporter_relax (kind : HeuristicKind) {p : Labels × Bool} (hp : p.1.supporters.size = p.1.costs.size)
    (o : Operator) {g : FactId} (hg : (relax kind p o).1.capped g ≠ ⊤) : (relax kind p o).1.supporter g =
      if g ∈ o.add ∧ g < p.1.costs.size ∧ (p.1.offer kind o).capped < p.1.capped g then some o
      else p.1.supporter g := by
  rw [capped_relax] at hg
  rw [relax_eq, (supporter_foldl_lower o _ o.add hp g).2]
  by_cases hadd : g ∈ o.add ∧ g < p.1.costs.size
  · rw [if_pos hadd] at hg
    exact if_congr (and_congr_right (fun _ => and_congr_right (fun _ => Cost.lt_iff_capped hg))) rfl rfl
  · rw [if_neg (fun h => hadd ⟨h.1, h.2.1⟩), if_neg (fun h => hadd ⟨h.1, h.2.1⟩)]

/-- A fact that is not lowered was in reach before, if it is afterwards. -/
theorem capped_ne_top_of_not_lowered {p : Labels × Bool} {g : FactId} (hg : (relax kind p o).1.capped g ≠ ⊤)
    (hlow : ¬ (g ∈ o.add ∧ g < p.1.costs.size ∧ (p.1.offer kind o).capped < p.1.capped g)) : p.1.capped g ≠ ⊤ := by
  intro htop
  refine hg ?_
  rw [capped_relax]
  split
  · rename_i hadd
    have hoff : ¬ (p.1.offer kind o).capped < ⊤ := fun hlt => hlow ⟨hadd.1, hadd.2, htop ▸ hlt⟩
    rw [htop, not_lt_top_iff.1 hoff, min_self]
  · exact htop

theorem Supported.relax {p : Labels × Bool} (h : p.1.Supported n) (o : Operator) :
    (relax kind p o).1.Supported n where
  size_eq := (size_relax kind p o).trans h.size_eq
  size_eq' := (size_supporters_relax kind h.sizes o).trans h.size_eq'
  pre f o' hf hsupp g hg := by
    have hle := capped_relax_le kind p o
    rw [supporter_relax kind h.sizes o hf] at hsupp
    refine ne_top_of_le_ne_top ?_ (hle g)
    split at hsupp
    · rename_i hlow
      -- The new supporter made an offer that is not infinite, so its precondition was in reach.
      obtain rfl := Option.some.inj hsupp
      have hoff := ne_top_of_lt hlow.2.2
      rw [capped_offer] at hoff
      have htotal : (p.1.total kind o.pre).capped ≠ ⊤ := fun ht => hoff (by
        rw [ht, top_add]
        exact Cost.cap_eq_top_iff.2 le_top)
      exact ne_top_of_le_ne_top htotal (capped_le_total hg)
    · rename_i hlow
      exact h.pre f o' (capped_ne_top_of_not_lowered hf hlow) hsupp g hg

theorem sizes_start (n : Nat) (s : State) : (start n s).supporters.size = (start n s).costs.size :=
  Array.size_replicate.trans (size_start n s).symm

theorem supporter_start (n : Nat) (s : State) (f : FactId) : (start n s).supporter f = none := by
  simp only [supporter, start, Array.getD_eq_getD_getElem?, Array.getElem?_replicate]
  split <;> rfl

theorem supported_start (n : Nat) (s : State) : (start n s).Supported n where
  size_eq := size_start n s
  size_eq' := Array.size_replicate
  pre f o _ hsupp := by
    rw [supporter_start] at hsupp
    cases hsupp

/-! ## Passes after the last -/

/-- The labels after a pass. -/
def afterPass (kind : HeuristicKind) (os : List Operator) (l : Labels) : Labels :=
  (pass kind os l).1

theorem relax_of_met {p : Labels × Bool} (hp : p.1.supporters.size = p.1.costs.size) (h : p.1.Met kind o) :
    (relax kind p o).1 = p.1 := by
  rw [relax_eq]
  refine List.foldlRecOn (motive := fun q : Labels × Bool => q.1 = p.1) o.add _ rfl (fun q hq f hf => ?_)
  unfold lower
  split
  · rename_i hlt
    rw [hq] at hlt ⊢
    have hout : p.1.costs.size ≤ f := Nat.le_of_not_lt (fun hin => not_lt.2 (h f hf hin) (Cost.lt_iff.1 hlt))
    rw [Array.setIfInBounds_eq_of_size_le hout, Array.setIfInBounds_eq_of_size_le (hp ▸ hout)]
  · exact hq

theorem afterPass_of_met {os : List Operator} (hl : l.supporters.size = l.costs.size)
    (h : ∀ o ∈ os, l.Met kind o) : afterPass kind os l = l :=
  List.foldlRecOn (motive := fun p : Labels × Bool => p.1 = l) os _ rfl
    (fun _ hp o ho => (relax_of_met (hp ▸ hl) (hp ▸ h o ho)).trans hp)

theorem settle_eq_iterate (kind : HeuristicKind) (os : List Operator) (k : Nat) (l : Labels) :
    settle kind os k l = (afterPass kind os)^[k] l := by
  induction k generalizing l with
  | zero => rfl
  | succ k ih =>
    unfold settle
    rw [Function.iterate_succ_apply]
    split
    · rename_i heq
      rw [ih, afterPass, heq]
    · rename_i heq
      have hfix : afterPass kind os l = l := (congrArg Prod.fst heq).trans (pass_false heq).1
      rw [hfix, Function.iterate_fixed hfix, (pass_false heq).1]

end Labels

namespace Relaxation

theorem labels_supported (r : Relaxation) (s : State) : (r.labels s).Supported r.numFacts :=
  Labels.settle_induct (I := Labels.Supported r.numFacts) (fun _ _ o _ h => h.relax o) _
    (Labels.supported_start _ s)

/-- **Any number of passes that is large enough gives the settled labels.** -/
theorem labels_eq_iterate (r : Relaxation) (s : State) {k : Nat} (hk : r.numFacts + 1 ≤ k) :
    r.labels s = (Labels.afterPass r.kind r.operators)^[k] (.start r.numFacts s) := by
  have hsupp := r.labels_supported s
  have hfix := Labels.afterPass_of_met hsupp.sizes (r.labels_met s)
  obtain ⟨j, rfl⟩ := Nat.exists_eq_add_of_le hk
  have hlabels : r.labels s = (Labels.afterPass r.kind r.operators)^[r.numFacts + 1] (.start r.numFacts s) :=
    Labels.settle_eq_iterate _ _ _ _
  rw [Nat.add_comm, Function.iterate_add_apply, ← hlabels, Function.iterate_fixed hfix]

end Relaxation
end GroundPlanner
