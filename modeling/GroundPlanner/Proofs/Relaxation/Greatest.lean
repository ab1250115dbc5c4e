import GroundPlanner.Proofs.Relaxation.Consistency
/-!
# The greatest costs that no offer undercuts

Costs that are nothing for what holds in the state and above no offer are at most the settled ones
(`Relaxation.le_labels`), which no offer undercuts either.  So the settled costs of one relaxation are at most those of
another that offers no more (`NoDearer`), and facts added to the state raise none.
-/
namespace GroundPlanner
namespace Labels

variable {kind kind' : HeuristicKind} {l l' : Labels} {fs : List FactId}

/-- The maximum is the least way of combining costs. -/
theorem value_total_le (hk : kind = kind' ∨ kind = .max) (hl' : l'.Exact) (h : ∀ f ∈ fs, l.value f ≤ l'.value f) :
    (l.total kind fs).value ≤ (l'.total kind' fs).value := by
  rcases hk with rfl | rfl
  · exact value_total_mono h
  · exact value_total_max_le.2 fun f hf => (h f hf).trans (value_le_total hl' hf)

end Labels

namespace Relaxation

variable {r r' : Relaxation} {s t : State} {goal : Condition}

/-- **Costs that no offer undercuts are at most the settled ones.** -/
theorem le_labels {x : FactId → ℕ∞} (hstart : ∀ f < r.numFacts, s.contains f = true → x f = 0)
    (hoffer : ∀ l : Labels, l.Exact → (∀ f, x f ≤ l.value f) → ∀ o ∈ r.operators, ∀ f ∈ o.add, f < r.numFacts →
      x f ≤ (l.offer r.kind o).value) (f : FactId) : x f ≤ (r.labels s).value f := by
  have hall : (r.labels s).Exact ∧ (r.labels s).costs.size = r.numFacts ∧ ∀ f, x f ≤ (r.labels s).value f := by
    unfold labels
    refine Labels.settle_induct (I := fun l => l.Exact ∧ l.costs.size = r.numFacts ∧ ∀ f, x f ≤ l.value f) ?_ _
      ⟨(Labels.start_from _ s).exact, Labels.size_start _ s, fun f => ?_⟩
    · rintro l b o ho ⟨hexact, hsize, hle⟩
      refine ⟨Labels.exact_relax _ hexact o, (Labels.size_relax _ _ _).trans hsize, fun f => ?_⟩
      rw [Labels.value_relax]
      split
      · rename_i hf
        exact le_min (hoffer l hexact hle o ho f hf.1 (hsize ▸ hf.2)) (hle f)
      · exact hle f
    · rw [Labels.value_start]
      split
      · rename_i hf
        exact (hstart f hf.1 hf.2).le
      · exact le_top
  exact hall.2.2 f

/-- **A relaxation that offers all that another offers**, and combines costs like it or by the maximum. -/
structure NoDearer (r r' : Relaxation) : Prop where
  numFacts_eq : r.numFacts = r'.numFacts
  kind : r.kind = r'.kind ∨ r.kind = .max
  covers : ∀ o ∈ r'.operators, ∀ f ∈ o.add, ∃ o' ∈ r.operators, o'.pre = o.pre ∧ f ∈ o'.add

theorem NoDearer.refl (r : Relaxation) : NoDearer r r :=
  ⟨rfl, .inl rfl, fun o ho _ hf => ⟨o, ho, rfl, hf⟩⟩

/-- **Its costs are no greater**, also where more facts hold. -/
theorem NoDearer.value_labels_le (h : NoDearer r r') (hst : ∀ f, s.contains f = true → t.contains f = true)
    (f : FactId) : (r.labels t).value f ≤ (r'.labels s).value f := by
  refine le_labels (fun f hf hs => ?_) (fun l hexact hle o ho f hf hlt => ?_) f
  · exact value_labels_of_contains (h.numFacts_eq ▸ hf) (hst f hs)
  · obtain ⟨o', ho', hpre, hadd⟩ := h.covers o ho f hf
    refine (r.labels_met t o' ho' f hadd ((r.labels_from t).2.symm ▸ h.numFacts_eq ▸ hlt)).trans ?_
    unfold Labels.offer
    rw [hpre]
    exact Cost.value_succ_mono (Labels.value_total_le h.kind hexact fun g _ => hle g)

/-- **Its estimates are no greater**, also where more facts hold. -/
theorem NoDearer.value_estimate_le (h : NoDearer r r') (hgoal : ∀ g ∈ goal.positive, g < r.numFacts)
    (hk : r'.kind ≠ .fastForward) (hst : ∀ f, s.contains f = true → t.contains f = true) :
    (r.estimate t goal).value ≤ (r'.estimate s goal).value := by
  have hk₀ : r.kind ≠ .fastForward := by
    rcases h.kind with heq | hmax
    · rwa [heq]
    · rw [hmax]
      decide
  rw [value_estimate_eq_total hgoal hk₀, value_estimate_eq_total (fun g hg => h.numFacts_eq ▸ hgoal g hg) hk]
  exact Labels.value_total_le h.kind (r'.labels_from s).1.exact fun g _ => h.value_labels_le hst g

end Relaxation
end GroundPlanner
