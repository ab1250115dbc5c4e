import GroundPlanner.Proofs.Relaxation.DeleteRelaxation
import Mathlib.Order.Bounds.Defs
/-!
# Facts within reach of the relaxation

The facts reached from a state are the least set that holds the state and is closed under effects without deletes
(`Problem.isLeast_reached`).  Relaxing an operator gives a finite cost to reached facts only (`Labels.Reaching`), so
what is not reached costs infinity (`Relaxation.value_labels_of_not_reached`), and so does a goal with such a fact.  The
converse is a matter of arithmetic: costs up to `Cost.sumBound` never add up to infinity
(`Labels.value_total_le_ceiling`), so as long as costs are no greater, and always where they are combined by the
maximum, an infinite estimate means that a goal fact is out of reach (`Relaxation.estimate_infinite_iff_unreached`).
-/
namespace GroundPlanner

namespace Problem

/-- **The facts that the relaxation reaches from a state**: those that hold, and those added by an effect whose guard
and whose action's precondition ask for reached facts only, negative literals aside. -/
inductive Reached (p : Problem) (s : State) : FactId → Prop where
  | holds {f : FactId} (hs : s.contains f = true) : Reached p s f
  | added {a : Action} {e : GuardedEffect} {f : FactId} (ha : a ∈ p.actions) (he : e ∈ a.effects)
    (hpre : ∀ g ∈ a.precondition.positive, Reached p s g) (hguard : ∀ g ∈ e.guard.positive, Reached p s g)
    (hf : f ∈ e.effect.add) : Reached p s f

/-- A set of facts that holds the state, and that no effect leads out of. -/
structure Closed (p : Problem) (s : State) (S : Set FactId) : Prop where
  holds : ∀ f, s.contains f = true → f ∈ S
  added : ∀ a ∈ p.actions, ∀ e ∈ a.effects, (∀ g ∈ a.precondition.positive, g ∈ S) →
    (∀ g ∈ e.guard.positive, g ∈ S) → ∀ f ∈ e.effect.add, f ∈ S

theorem isLeast_reached (p : Problem) (s : State) : IsLeast {S | p.Closed s S} {f | p.Reached s f} := by
  refine ⟨⟨fun f hs => .holds hs, fun a ha e he hpre hguard f hf => .added ha he hpre hguard hf⟩, ?_⟩
  intro S hS f hf
  induction hf with
  | holds hs => exact hS.holds _ hs
  | added ha he _ _ hf ihpre ihguard => exact hS.added _ ha _ he ihpre ihguard _ hf

variable {p : Problem} {s : State} {o : Operator} {f : FactId}

/-- What an operator adds is reached if its precondition is. -/
theorem Reached.of_operator (ho : o ∈ Operator.ofActions p.actions) (hpre : ∀ g ∈ o.pre, p.Reached s g)
    (hf : f ∈ o.add) : p.Reached s f := by
  obtain ⟨a, e, ha, he, -, heq⟩ := Operator.exists_of_mem_ofActions ho
  rw [heq] at hpre hf
  refine .added (List.mem_of_getElem? ha) he (fun g hg => hpre g ?_) (fun g hg => hpre g ?_) hf
  · exact mem_ascending.2 (List.mem_append_left _ hg)
  · exact mem_ascending.2 (List.mem_append_right _ hg)

end Problem

/-! ## Sums that stay finite -/

namespace Cost

/-- The largest power of two among the doubles. -/
def ceiling : Nat :=
  2 ^ 1023

/-- Half of the last place of `ceiling`. -/
def sumBound : Nat :=
  2 ^ 970

/-- What is added to a cost below the ceiling rounds back to the ceiling at most. -/
theorem value_add_le_ceiling {a b : Cost} (ha : a.value ≤ ceiling) (hb : b.value ≤ sumBound) :
    (a.add b).value ≤ ceiling :=
  calc (a.add b).value ≤ ((finite ceiling).add (finite sumBound)).value := value_add_mono ha hb
    _ = (finite ceiling).value := congrArg value (by decide +kernel)

end Cost

namespace Labels

variable {kind : HeuristicKind} {l : Labels} {fs : List FactId}

/-- **Costs up to the bound never add up to infinity**, however many they are. -/
theorem value_total_le_ceiling (h : ∀ f ∈ fs, l.value f ≤ Cost.sumBound) : (l.total kind fs).value ≤ Cost.ceiling := by
  have hbound : (Cost.sumBound : ℕ∞) ≤ Cost.ceiling := Nat.cast_le.2 (by decide +kernel)
  rw [total_eq]
  refine List.foldlRecOn (motive := fun c : Cost => c.value ≤ Cost.ceiling) fs _ zero_le fun c hc f hf => ?_
  cases kind with
  | max =>
    rw [HeuristicKind.combine, Cost.value_max]
    exact max_le hc ((h f hf).trans hbound)
  | additive => exact Cost.value_add_le_ceiling hc (h f hf)
  | fastForward => exact Cost.value_add_le_ceiling hc (h f hf)

theorem value_total_ne_top (h : ∀ f ∈ fs, l.value f ≤ Cost.sumBound) : (l.total kind fs).value ≠ ⊤ :=
  ne_top_of_le_ne_top (ENat.natCast_ne_top _) (value_total_le_ceiling h)

theorem value_offer_ne_top {o : Operator} (h : ∀ f ∈ o.pre, l.value f ≤ Cost.sumBound) :
    (l.offer kind o).value ≠ ⊤ := by
  have hone : (Cost.finite 1).value ≤ Cost.sumBound := Nat.cast_le.2 (by decide +kernel)
  exact ne_top_of_le_ne_top (ENat.natCast_ne_top _) (Cost.value_add_le_ceiling (value_total_le_ceiling h) hone)

/-! ## Finite costs -/

variable {p : Problem} {s : State} {o : Operator} {f : FactId}

/-- **Costs of a problem's facts from a state**, finite only where the relaxation reaches. -/
structure Reaching (p : Problem) (s : State) (l : Labels) : Prop extends l.From s where
  size_eq : l.costs.size = p.numFacts
  reached : ∀ f, l.value f ≠ ⊤ → p.Reached s f

theorem Reaching.of_offer (h : l.Reaching p s) (ho : o ∈ Operator.ofActions p.actions)
    (hoff : (l.offer kind o).value ≠ ⊤) (hf : f ∈ o.add) : p.Reached s f :=
  .of_operator ho (fun g hg => h.reached g (ne_top_of_le_ne_top hoff (value_le_offer h.exact hg))) hf

theorem Reaching.relax (h : l.Reaching p s) (b : Bool) (ho : o ∈ Operator.ofActions p.actions) :
    (Labels.relax kind (l, b) o).1.Reaching p s where
  toFrom := h.toFrom.relax b o
  size_eq := (size_relax kind (l, b) o).trans h.size_eq
  reached f hf := by
    rw [value_relax_eq] at hf
    split at hf
    · rename_i hlow
      exact h.of_offer ho hf hlow.1
    · exact h.reached f hf

theorem reaching_start (p : Problem) (s : State) : (start p.numFacts s).Reaching p s where
  toFrom := start_from p.numFacts s
  size_eq := size_start p.numFacts s
  reached f hf := by
    rw [value_start] at hf
    split at hf
    · rename_i hs
      exact .holds hs.2
    · exact absurd rfl hf

end Labels

namespace Relaxation

variable {r : Relaxation} {p : Problem} {s : State} {name : HeuristicName} {goal : Condition} {f : FactId}

/-- Costs whose sums are finite. -/
def Modest (r : Relaxation) (s : State) : Prop :=
  ∀ f n, (r.labels s).cost f = .finite n → n ≤ Cost.sumBound

theorem Modest.value_le (h : r.Modest s) (hf : (r.labels s).value f ≠ ⊤) : (r.labels s).value f ≤ Cost.sumBound := by
  obtain ⟨n, hn⟩ := Cost.exists_eq_finite hf
  rw [Labels.value, hn]
  exact Nat.cast_le.2 (h f n hn)

theorem modest_of_max (hk : r.kind = .max) (s : State) : r.Modest s :=
  fun f n hn => (small_labels hk s f n hn).trans (by decide +kernel)

/-! ## Reached facts and their costs -/

theorem labels_reaching (name : HeuristicName) (p : Problem) (s : State) :
    ((ofProblem name p).labels s).Reaching p s :=
  Labels.settle_induct (I := Labels.Reaching p s) (fun _ b _ ho h => h.relax b ho) _ (Labels.reaching_start p s)

/-- **What is not reached costs infinity.** -/
theorem value_labels_of_not_reached (hf : ¬ p.Reached s f) : ((ofProblem name p).labels s).value f = ⊤ := by
  by_contra htop
  exact hf ((labels_reaching name p s).reached f htop)

/-- **What is reached costs less than infinity**, as long as costs are modest. -/
theorem value_labels_of_reached (hp : p.InTable) (hm : (ofProblem name p).Modest s) (h : p.Reached s f)
    (hf : f < p.numFacts) : ((ofProblem name p).labels s).value f ≠ ⊤ := by
  induction h with
  | holds hs =>
    rw [value_labels_of_contains (r := ofProblem name p) hf hs]
    exact ENat.zero_ne_top
  | @added a e f ha he _ _ hadd ihpre ihguard =>
    obtain ⟨i, ho⟩ := Operator.mem_ofActions ha he hadd
    have hbelow := hp.actions a ha
    have hmet := (ofProblem name p).labels_met s _ ho f hadd (((ofProblem name p).labels_from s).2.symm ▸ hf)
    refine ne_top_of_le_ne_top (Labels.value_offer_ne_top fun g hg => hm.value_le ?_) hmet
    rcases List.mem_append.1 (mem_ascending.1 hg) with hg | hg
    · exact ihpre g hg (hbelow.1.1 g hg)
    · exact ihguard g hg ((hbelow.2 e he).1.1 g hg)

/-! ## Infinite estimates -/

theorem estimate_eq_infinite {g : FactId} (hg : g ∈ goal.positive) (hs : s.contains g = false)
    (htop : (r.labels s).value g = ⊤) : r.estimate s goal = .infinite := by
  have hinf : (r.labels s).cost g = .infinite := Cost.value_injective htop
  have htotal : ∀ kind, (r.labels s).total kind goal.positive = .infinite := fun kind =>
    Cost.value_injective (top_le_iff.1 (htop ▸ Labels.value_le_total (r.labels_from s).1.exact hg))
  unfold estimate
  split
  · rename_i hall
    rw [List.all_eq_true.1 hall g hg] at hs
    cases hs
  · split
    · rfl
    · simp only
      split
      · exact htotal _
      · exact htotal _
      · rw [if_neg]
        intro hall
        have hfin := List.all_eq_true.1 hall g hg
        rw [hinf] at hfin
        cases hfin

theorem estimate_ne_infinite (hgoal : ∀ g ∈ goal.positive, g < r.numFacts ∧ (r.labels s).value g ≤ Cost.sumBound) :
    r.estimate s goal ≠ .infinite := by
  have htotal : ∀ kind, (r.labels s).total kind goal.positive ≠ .infinite := fun kind hinf =>
    Labels.value_total_ne_top (fun g hg => (hgoal g hg).2) (congrArg Cost.value hinf)
  unfold estimate
  split
  · nofun
  · split
    · rename_i hout
      obtain ⟨g, hg, hge⟩ := List.any_eq_true.1 hout
      exact absurd (hgoal g hg).1 (Nat.not_lt.2 (of_decide_eq_true hge))
    · simp only
      split
      · exact htotal _
      · exact htotal _
      · rw [if_pos]
        · nofun
        · refine List.all_eq_true.2 fun g hg => ?_
          cases hc : (r.labels s).cost g with
          | finite => rfl
          | infinite =>
            have hle := (hgoal g hg).2
            rw [Labels.value, hc] at hle
            exact absurd (top_le_iff.1 hle) (ENat.natCast_ne_top _)

variable {d : Draft}

/-- **An infinite estimate means that a goal fact is out of reach of the relaxation**, for every heuristic whose costs
are combined by the maximum, and for all others as long as no cost is so great that sums of costs may overflow; a goal
fact that is out of reach makes every estimate infinite. -/
theorem estimate_infinite_iff_unreached (hb : d.build = .ok p) (name : HeuristicName) (s : State) :
    IsLeast {S | p.Closed s S} {f | p.Reached s f} ∧
    ((∃ g ∈ p.goal.positive, ¬ p.Reached s g) → (ofProblem name p).estimate s p.goal = .infinite) ∧
    ((name.kind = .max ∨ (ofProblem name p).Modest s) →
      ((ofProblem name p).estimate s p.goal = .infinite ↔ ∃ g ∈ p.goal.positive, ¬ p.Reached s g)) := by
  have hp := Draft.build_inTable hb
  have hout : (∃ g ∈ p.goal.positive, ¬ p.Reached s g) → (ofProblem name p).estimate s p.goal = .infinite := by
    rintro ⟨g, hg, hnot⟩
    have hs : s.contains g = false := Bool.eq_false_iff.2 fun hs => hnot (.holds hs)
    exact estimate_eq_infinite hg hs (value_labels_of_not_reached hnot)
  refine ⟨p.isLeast_reached s, hout, fun hk => ⟨fun hinf => ?_, hout⟩⟩
  have hm : (ofProblem name p).Modest s := hk.elim (fun hmax => modest_of_max (r := ofProblem name p) hmax s) id
  by_contra hall
  push Not at hall
  refine estimate_ne_infinite (fun g hg => ?_) hinf
  have hlt := hp.goal.1 g hg
  exact ⟨hlt, hm.value_le (value_labels_of_reached hp hm (hall g hg) hlt)⟩

/-- Nothing provides what the only action asks for, so the goal is out of reach, whatever the heuristic. -/
theorem estimate_infinite_iff_unreached_goal : ∃ p, Families.unreachableGoal.build = .ok p ∧
    (∃ g ∈ p.goal.positive, ¬ p.Reached p.init g) ∧ ∀ name, (ofProblem name p).estimate p.init p.goal = .infinite := by
  obtain ⟨p, hb, hmax⟩ := Draft.exists_build (d := Families.unreachableGoal)
    (fun p => (ofProblem .max p).estimate p.init p.goal == .infinite) (by decide +kernel)
  rw [beq_iff_eq] at hmax
  have hout := ((estimate_infinite_iff_unreached hb .max p.init).2.2 (.inl rfl)).1 hmax
  exact ⟨p, hb, hout, fun name => (estimate_infinite_iff_unreached hb name p.init).2.1 hout⟩

end Relaxation
end GroundPlanner
