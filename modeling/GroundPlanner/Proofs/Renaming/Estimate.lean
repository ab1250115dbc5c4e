import GroundPlanner.Proofs.Renaming.Labels
/-!
# Estimates of renamed problems

If the finite costs from a state are below the bound from which on sums are rounded (`Relaxation.InRange`), what is out
of reach in a problem is out of reach in the renamed one (`Relaxation.infinite_rename`), and a relaxed plan of either
takes the same actions (`Relaxation.actionCount_rename`).  So the estimates are the same
(`Relaxation.estimate_rename`).
-/
namespace GroundPlanner

/-- Whether a cost is finite and below the bound. -/
def Cost.inRange : Cost → Bool
  | finite n => n < exactBound
  | infinite => false

/-- **The finite costs from a state are below the bound**: those of the facts, of the preconditions and the estimate. -/
structure Relaxation.InRange (r : Relaxation) (s : State) (goal : Condition) : Prop where
  facts : ∀ f, (r.labels s).cost f ≠ .infinite → ((r.labels s).cost f).inRange = true
  operators : ∀ o ∈ r.operators, (∀ f ∈ o.pre, (r.labels s).cost f ≠ .infinite) →
    ((r.labels s).total r.kind o.pre).inRange = true
  goal : (∀ f ∈ goal.positive, (r.labels s).cost f ≠ .infinite) → (r.estimate s goal).inRange = true

variable {σ : Equiv.Perm FactId} {kind : HeuristicKind} {name : HeuristicName} {p q : Problem} {s t : State}
  {l l' : Labels} {o : Operator} {n n' : Nat} {fs : List FactId} {f g : FactId}

namespace Cost

theorem capped_ne_top_iff {c : Cost} : c.capped ≠ ⊤ ↔ c.inRange = true := by
  cases c with
  | infinite => exact iff_of_false (fun h => h rfl) Bool.false_ne_true
  | finite n =>
    rw [capped, Ne, cap_eq_top_iff, not_le, value_finite, Nat.cast_lt]
    exact decide_eq_true_iff.symm

theorem eq_of_capped_eq {a b : Cost} (h : a.capped = b.capped) (hb : b.capped ≠ ⊤) : a = b := by
  have ha : a.capped ≠ ⊤ := h ▸ hb
  refine value_injective ?_
  rw [← cap_of_ne_top ha, ← cap_of_ne_top hb]
  exact h

end Cost

theorem Labels.total_infinite (hl : l.Exact) (hf : f ∈ fs) (h : l.cost f = .infinite) :
    l.total kind fs = .infinite := by
  have hle : l.value f ≤ (l.total kind fs).value := value_le_total hl hf
  rw [value, h] at hle
  exact Cost.value_injective (top_le_iff.1 hle)

namespace Relaxation

variable {r : Relaxation} {goal : Condition}

/-- Only an operator whose precondition is out of reach leaves a fact out of reach. -/
theorem InRange.exists_infinite (hx : r.InRange s goal) (ho : o ∈ r.operators) (hf : f ∈ o.add) (hlt : f < r.numFacts)
    (hinf : (r.labels s).cost f = .infinite) : ∃ g ∈ o.pre, (r.labels s).cost g = .infinite := by
  by_contra hnone
  push Not at hnone
  have hrange := hx.operators o ho hnone
  have hmet := r.labels_met s o ho f hf ((r.labels_from s).2.symm ▸ hlt)
  have hvalue : (r.labels s).value f = ⊤ := congrArg Cost.value hinf
  rw [hvalue, top_le_iff, Labels.offer] at hmet
  cases htotal : (r.labels s).total r.kind o.pre with
  | infinite =>
    rw [htotal] at hrange
    cases hrange
  | finite k =>
    rw [htotal] at hrange hmet
    have hk : k < Cost.exactBound := of_decide_eq_true hrange
    rw [Cost.succ_of_le (Nat.le_of_lt hk)] at hmet
    exact ENat.natCast_ne_top _ hmet

/-- **What is out of reach in a problem is out of reach in the renamed one.** -/
theorem infinite_rename (hr : p.Renamed σ q) (h : p.Mirrors σ q s t) (hx : (ofProblem name p).InRange s goal)
    (hf : ((ofProblem name p).labels s).cost f = .infinite) :
    ((ofProblem name q).labels t).cost (σ f) = .infinite := by
  -- Capped costs do not tell rounded sums from infinite ones, so this goes through the passes on the renamed problem:
  -- none of them lowers a label that is infinite in the other.
  let I : Labels → Prop := fun l' => l'.Exact ∧
    ∀ f, ((ofProblem name p).labels s).cost f = .infinite → l'.cost (σ f) = .infinite
  have hstart : I (.start q.numFacts t) := by
    refine ⟨(Labels.start_from _ t).exact, fun f hf => ?_⟩
    rw [Labels.cost_start, if_neg]
    rintro ⟨-, ht⟩
    rw [h.contains_eq] at ht
    have hfree := value_labels_of_contains (r := ofProblem name p) (h.lt f ht) ht
    rw [Labels.value, hf] at hfree
    cases hfree
  have hstep : ∀ l' b, ∀ o ∈ (ofProblem name q).operators, I l' →
      I (Labels.relax (ofProblem name q).kind (l', b) o).1 := by
    intro l' b o' ho' hl'
    refine ⟨Labels.exact_relax _ hl'.1 o', fun f hf => ?_⟩
    rw [operators_rename hr] at ho'
    obtain ⟨o, ho, rfl⟩ := List.mem_map.1 ho'
    rw [Labels.relax_eq, (Labels.cost_foldl_lower _ _ _ (l', b) (σ f)).2]
    split
    · rename_i hlow
      have hadd : f ∈ o.add := (List.mem_map_of_injective σ.injective).1 hlow.1
      have hlt : f < p.numFacts := (Operator.of_mem_ofActions hr.inTable ho).1 f hadd
      obtain ⟨g, hg, hginf⟩ := hx.exists_infinite ho hadd hlt hf
      have hpre : σ g ∈ (o.rename σ).pre := apply_mem_ascending_map hg
      have htotal : l'.total (ofProblem name q).kind (o.rename σ).pre = .infinite :=
        Labels.total_infinite hl'.1 hpre (hl'.2 g hginf)
      have hoffer : Labels.offer (ofProblem name q).kind l' (o.rename σ) = .infinite := by
        rw [Labels.offer, htotal]
        rfl
      exact hoffer
    · exact hl'.2 f hf
  exact (Labels.settle_induct hstep _ hstart).2 f hf

theorem infinite_iff_rename (hr : p.Renamed σ q) (h : p.Mirrors σ q s t) (hx : (ofProblem name p).InRange s goal)
    (f : FactId) : ((ofProblem name q).labels t).cost (σ f) = .infinite ↔
      ((ofProblem name p).labels s).cost f = .infinite := by
  refine ⟨fun hf => ?_, infinite_rename hr h hx⟩
  by_contra hfin
  have hcapped : ((ofProblem name p).labels s).capped f ≠ ⊤ := Cost.capped_ne_top_iff.2 (hx.facts f hfin)
  rw [← (labels_rename hr h).capped_eq, Labels.capped, hf] at hcapped
  exact hcapped rfl

/-- The total of a list that is in range, unless some of it is out of reach. -/
theorem total_rename (hr : p.Renamed σ q) (h : p.Mirrors σ q s t) (hx : (ofProblem name p).InRange s goal)
    (hfs : fs.Nodup) (hrange : (∀ f ∈ fs, ((ofProblem name p).labels s).cost f ≠ .infinite) →
      (((ofProblem name p).labels s).total kind fs).inRange = true) :
    ((ofProblem name q).labels t).total kind (ascending (fs.map σ)) =
      ((ofProblem name p).labels s).total kind fs := by
  by_cases hfin : ∀ f ∈ fs, ((ofProblem name p).labels s).cost f ≠ .infinite
  · have hcapped : (((ofProblem name q).labels t).total kind (ascending (fs.map σ))).capped =
        (((ofProblem name p).labels s).total kind fs).capped :=
      Labels.capped_total_rename (labels_rename hr h).capped_eq hfs
    exact Cost.eq_of_capped_eq hcapped (Cost.capped_ne_top_iff.2 (hrange hfin))
  · push Not at hfin
    obtain ⟨f, hf, hinf⟩ := hfin
    have hf' : σ f ∈ ascending (fs.map σ) := apply_mem_ascending_map hf
    rw [Labels.total_infinite ((ofProblem name p).labels_from s).1.exact hf hinf,
      Labels.total_infinite ((ofProblem name q).labels_from t).1.exact hf' (infinite_rename hr h hx hinf)]

end Relaxation

/-! ## Relaxed plans -/

theorem needed_rename (h : l.Renamed σ n n' l') (hfs : ∀ f ∈ fs, l.capped f ≠ ⊤) :
    Needed l' (ascending (fs.map σ)) g ↔ ∃ f, g = σ f ∧ Needed l fs f := by
  constructor
  · intro hg
    induction hg with
    | goal hg =>
      obtain ⟨f, hf, rfl⟩ := mem_ascending_map.1 hg
      exact ⟨f, rfl, .goal hf⟩
    | pre _ ho hg ih =>
      obtain ⟨f, rfl, hf⟩ := ih
      rw [h.supporter_eq f (hf.capped_ne_top h.supported hfs)] at ho
      obtain ⟨o, hsupp, rfl⟩ := Option.map_eq_some_iff.1 ho
      obtain ⟨f', hf', rfl⟩ := mem_ascending_map.1 hg
      exact ⟨f', rfl, .pre hf hsupp hf'⟩
  · rintro ⟨f, rfl, hf⟩
    induction hf with
    | goal hf => exact .goal (apply_mem_ascending_map hf)
    | pre hf ho hg ih =>
      have hsupp := h.supporter_eq _ (hf.capped_ne_top h.supported hfs)
      rw [ho] at hsupp
      exact .pre ih hsupp (apply_mem_ascending_map hg)

namespace Relaxation

/-- **A relaxed plan of the renamed problem takes the same actions.** -/
theorem actionCount_rename {r r' : Relaxation} (h : l.Renamed σ r.numFacts r'.numFacts l')
    (hfs : ∀ f ∈ fs, l.capped f ≠ ⊤) :
    actionCount (r'.relaxedPlan l' (ascending (fs.map σ))) = actionCount (r.relaxedPlan l fs) := by
  have hfs' : ∀ g ∈ ascending (fs.map σ), l'.capped g ≠ ⊤ := by
    intro g hg
    obtain ⟨f, hf, rfl⟩ := mem_ascending_map.1 hg
    rw [h.capped_eq]
    exact hfs f hf
  unfold actionCount
  refine congrArg List.length (ascending_congr (fun i => ?_))
  simp only [List.mem_map, mem_relaxedPlan h.supported.size_eq' (fun _ hf => hf.lt h.supported hfs),
    mem_relaxedPlan h.supported'.size_eq' (fun _ hf => hf.lt h.supported' hfs'), needed_rename h hfs]
  constructor
  · rintro ⟨o', ⟨g, ⟨f, rfl, hf⟩, ho'⟩, rfl⟩
    rw [h.supporter_eq f (hf.capped_ne_top h.supported hfs)] at ho'
    obtain ⟨o, ho, rfl⟩ := Option.map_eq_some_iff.1 ho'
    exact ⟨o, ⟨f, hf, ho⟩, rfl⟩
  · rintro ⟨o, ⟨f, hf, ho⟩, rfl⟩
    have hsupp := h.supporter_eq f (hf.capped_ne_top h.supported hfs)
    rw [ho] at hsupp
    exact ⟨o.rename σ, ⟨σ f, ⟨f, rfl, hf⟩, hsupp⟩, rfl⟩

/-- The estimate in a state that lacks a positive goal fact. -/
theorem estimate_eq (hp : p.InTable) (hs : p.goal.positive.all s.contains = false) :
    (ofProblem name p).estimate s p.goal = match name.kind with
      | .max => ((ofProblem name p).labels s).total .max p.goal.positive
      | .additive => ((ofProblem name p).labels s).total .additive p.goal.positive
      | .fastForward =>
        if p.goal.positive.all (fun g => (((ofProblem name p).labels s).cost g).isFinite) then
          .finite (actionCount ((ofProblem name p).relaxedPlan ((ofProblem name p).labels s) p.goal.positive))
        else .infinite := by
  have hin : p.goal.positive.any (fun g => (ofProblem name p).numFacts ≤ g) = false := by
    rw [List.any_eq_false]
    exact fun g hg hge => absurd (hp.goal.1 g hg) (Nat.not_lt.2 (of_decide_eq_true hge))
  have hkind : (ofProblem name p).kind = name.kind := rfl
  unfold estimate
  rw [hs, hin, hkind]
  cases name.kind <;> rfl

/-- **The estimates of renamed problems are the same**, if the finite costs are below the bound. -/
theorem estimate_rename (hr : p.Renamed σ q) (h : p.Mirrors σ q s t) (hx : (ofProblem name p).InRange s p.goal) :
    (ofProblem name q).estimate t q.goal = (ofProblem name p).estimate s p.goal := by
  have hgoal := hx.goal
  have hpositive : q.goal.positive = ascending (p.goal.positive.map σ) := by
    rw [hr.goal_eq]
    rfl
  have hmet : q.goal.positive.all t.contains = p.goal.positive.all s.contains := by
    rw [Bool.eq_iff_iff, List.all_eq_true, List.all_eq_true, hpositive]
    simp only [mem_ascending, List.forall_mem_map, h.contains_eq]
  cases hs : p.goal.positive.all s.contains with
  | true =>
    unfold estimate
    rw [if_pos hs, if_pos (hmet.trans hs)]
  | false =>
    rw [estimate_eq hr.inTable hs] at hgoal ⊢
    rw [estimate_eq hr.inTable' (hmet.trans hs), hpositive]
    cases hk : name.kind with
    | max =>
      rw [hk] at hgoal
      exact total_rename hr h hx hr.goal_nodup hgoal
    | additive =>
      rw [hk] at hgoal
      exact total_rename hr h hx hr.goal_nodup hgoal
    | fastForward =>
      have hfinite : ∀ {l : Labels} {f : FactId}, (l.cost f).isFinite = true ↔ l.cost f ≠ .infinite := by
        intro l f
        cases l.cost f <;> simp [Cost.isFinite]
      have hall : (ascending (p.goal.positive.map σ)).all (fun g => (((ofProblem name q).labels t).cost g).isFinite) =
          p.goal.positive.all (fun g => (((ofProblem name p).labels s).cost g).isFinite) := by
        rw [Bool.eq_iff_iff, List.all_eq_true, List.all_eq_true]
        simp only [mem_ascending, List.forall_mem_map, hfinite, Ne, infinite_iff_rename hr h hx]
      simp only [hall]
      split
      · rename_i hfin
        simp only [List.all_eq_true, hfinite] at hfin
        have hcapped : ∀ g ∈ p.goal.positive, ((ofProblem name p).labels s).capped g ≠ ⊤ :=
          fun g hg => Cost.capped_ne_top_iff.2 (hx.facts g (hfin g hg))
        exact congrArg Cost.finite (actionCount_rename (labels_rename hr h) hcapped)
      · rfl

end Relaxation
end GroundPlanner
