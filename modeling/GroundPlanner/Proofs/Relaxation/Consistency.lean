import GroundPlanner.Problem.Families
import GroundPlanner.Proofs.Draft
import GroundPlanner.Proofs.Relaxation.Settle
import GroundPlanner.Proofs.Walk
/-!
# The dearest goal fact as a consistent estimate

Relaxed costs of a state are at most one above those of each of its successors (`Relaxation.value_le_succ`): what the
labels of the successor rest on is, one action earlier, an offer in the state.  With costs combined by the maximum the
estimate is therefore consistent (`Relaxation.estimate_consistent`) and lowered by a walk by its length at most
(`Relaxation.estimate_le_walk`), so it never exceeds the length of a walk to a goal (`Relaxation.estimate_admissible`).
-/
namespace GroundPlanner

namespace Operator

/-- Every effect that adds something is an operator. -/
theorem mem_ofActions {actions : List Action} {a : Action} {e : GuardedEffect} (ha : a ∈ actions) (he : e ∈ a.effects)
    {f : FactId} (hf : f ∈ e.effect.add) :
    ∃ i, ⟨i, ascending (a.precondition.positive ++ e.guard.positive), e.effect.add⟩ ∈ ofActions actions := by
  obtain ⟨i, hi, rfl⟩ := List.getElem_of_mem ha
  refine ⟨i, List.mem_flatMap.2 ⟨(actions[i], i), ?_, List.mem_filterMap.2 ⟨e, he, ?_⟩⟩⟩
  · exact List.mem_zipIdx_iff_getElem?.2 (List.getElem?_eq_getElem hi)
  · have hne : e.effect.add.isEmpty = false := by
      cases hadd : e.effect.add with
      | nil =>
        rw [hadd] at hf
        cases hf
      | cons => rfl
    rw [ofEffect, hne]
    rfl

end Operator

namespace State

theorem contains_foldl_apply {es : List Effect} {s : State} {f : FactId} (h : (es.foldl apply s).contains f = true) :
    s.contains f = true ∨ ∃ e ∈ es, f ∈ e.add := by
  induction es generalizing s with
  | nil => exact .inl h
  | cons e es ih =>
    rcases ih h with hs | ⟨e', he', hf⟩
    · rw [apply, contains_insertAll, contains_removeAll] at hs
      simp only [Bool.or_eq_true, Bool.and_eq_true, decide_eq_true_eq] at hs
      rcases hs with ⟨hs, -⟩ | ⟨hf, -⟩
      · exact .inl hs
      · exact .inr ⟨e, List.mem_cons_self, hf⟩
    · exact .inr ⟨e', List.mem_cons_of_mem e he', hf⟩

end State

/-- What holds after an action held before or is added by an effect whose guard holds. -/
theorem Action.contains_successor {a : Action} {s : State} {f : FactId} (h : (a.successor s).contains f = true) :
    s.contains f = true ∨ ∃ e ∈ a.effects, s.satisfies e.guard = true ∧ f ∈ e.effect.add := by
  rcases State.contains_foldl_apply h with hs | ⟨e, he, hf⟩
  · exact .inl hs
  · obtain ⟨g, hg, rfl⟩ := List.mem_map.1 he
    obtain ⟨hg, hguard⟩ := List.mem_filter.1 hg
    exact .inr ⟨g, hg, hguard, hf⟩

namespace Cost

/-- Finite costs at most one above the numbers that are told apart: those of operators combined by the maximum. -/
def Small (c : Cost) : Prop :=
  ∀ n, c = .finite n → n ≤ exactBound

theorem Small.max {a b : Cost} (ha : a.Small) (hb : b.Small) : (a.max b).Small := by
  intro n hn
  cases a with
  | infinite => cases hn
  | finite m =>
    cases b with
    | infinite => cases hn
    | finite k =>
      cases hn
      exact Nat.max_le.2 ⟨ha m rfl, hb k rfl⟩

theorem Small.succ {a : Cost} (ha : a.Small) : a.succ.Small := by
  intro n hn
  cases a with
  | infinite => cases hn
  | finite m =>
    rw [succ_of_le (ha m rfl)] at hn
    cases hn
    exact Nat.min_le_right _ _

/-- Adding one does not widen a gap of one. -/
theorem Small.value_succ_le {a b : Cost} (ha : a.Small) (hb : b.Small) (h : a.value ≤ b.value + 1) :
    a.succ.value ≤ b.succ.value + 1 := by
  cases b with
  | infinite => exact le_top
  | finite n =>
    cases a with
    | infinite => exact absurd h (by simp)
    | finite m =>
      rw [value_finite, value_finite] at h
      have h : m ≤ n + 1 := by exact_mod_cast h
      have hmin : min (m + 1) exactBound ≤ min (n + 1) exactBound + 1 := by omega
      rw [succ_of_le (ha m rfl), succ_of_le (hb n rfl), value_finite, value_finite]
      exact_mod_cast hmin

end Cost

namespace Labels

variable {kind : HeuristicKind} {l l' : Labels} {o : Operator} {s : State}

/-! ## The first labels -/

theorem cost_start (n : Nat) (s : State) (f : FactId) :
    (start n s).cost f = if f < n ∧ s.contains f = true then .zero else .infinite := by
  unfold cost start
  simp only [Array.getD_eq_getD_getElem?, Array.getElem?_ofFn]
  by_cases hf : f < n
  · simp [hf]
  · simp [hf]

theorem value_start (n : Nat) (s : State) (f : FactId) :
    (start n s).value f = if f < n ∧ s.contains f = true then 0 else ⊤ := by
  rw [value, cost_start]
  split <;> rfl

theorem size_start (n : Nat) (s : State) : (start n s).costs.size = n :=
  Array.size_ofFn

theorem start_from (n : Nat) (s : State) : (start n s).From s where
  exact f := by
    rw [cost_start]
    split
    · exact Cost.exact_zero
    · trivial
  free f hf hs := by
    rw [size_start] at hf
    rw [value_start, if_pos ⟨hf, hs⟩]

/-! ## Combining by the maximum -/

theorem value_foldl_max_le {fs : List FactId} {c : Cost} {x : ℕ∞} :
    (fs.foldl (fun c f => HeuristicKind.max.combine c (l.cost f)) c).value ≤ x ↔
      c.value ≤ x ∧ ∀ f ∈ fs, l.value f ≤ x := by
  induction fs generalizing c with
  | nil => simp
  | cons f fs ih =>
    rw [List.foldl_cons, ih, HeuristicKind.combine, Cost.value_max, max_le_iff, List.forall_mem_cons, and_assoc]
    rfl

theorem value_total_max_le {fs : List FactId} {x : ℕ∞} : (l.total .max fs).value ≤ x ↔ ∀ f ∈ fs, l.value f ≤ x := by
  rw [total_eq, value_foldl_max_le, Cost.value_zero]
  exact and_iff_right zero_le

theorem small_total_max (h : ∀ f, (l.cost f).Small) (fs : List FactId) : (l.total .max fs).Small := by
  rw [total_eq]
  refine List.foldlRecOn (motive := Cost.Small) fs _ ?_ (fun c hc f _ => hc.max (h f))
  rintro n ⟨⟩
  exact Nat.zero_le _

theorem small_relax {p : Labels × Bool} (h : ∀ f, (p.1.cost f).Small) (o : Operator) (f : FactId) :
    ((relax .max p o).1.cost f).Small := by
  rw [relax_eq, (cost_foldl_lower o _ o.add p f).2]
  split
  · exact (small_total_max h o.pre).succ
  · exact h f

theorem small_start (n : Nat) (s : State) (f : FactId) : ((start n s).cost f).Small := by
  rw [cost_start]
  split
  · rintro n ⟨⟩
    exact Nat.zero_le _
  · rintro n ⟨⟩

end Labels

namespace Relaxation

variable {r : Relaxation} {p : Problem} {s t : State} {a : Action}

/-! ## Settled labels -/

theorem labels_from (r : Relaxation) (s : State) : (r.labels s).From s ∧ (r.labels s).costs.size = r.numFacts := by
  unfold labels
  refine Labels.settle_induct (I := fun l => l.From s ∧ l.costs.size = r.numFacts) ?_ _
    ⟨Labels.start_from _ s, Labels.size_start _ s⟩
  rintro l b o - ⟨hfrom, hsize⟩
  exact ⟨hfrom.relax b o, (Labels.size_relax _ _ _).trans hsize⟩

/-- **No operator has more to offer.** -/
theorem labels_met (r : Relaxation) (s : State) : ∀ o ∈ r.operators, (r.labels s).Met r.kind o := by
  refine Labels.met_settle (k := 0) _ (Labels.start_from _ s) (fun _ _ _ => Nat.zero_le _) ?_
  rw [Labels.size_start]
  omega

theorem value_labels_of_contains {f : FactId} (hf : f < r.numFacts) (hs : s.contains f = true) :
    (r.labels s).value f = 0 :=
  (r.labels_from s).1.free f ((r.labels_from s).2.symm ▸ hf) hs

/-- A fact that an action adds costs at most one where the action applies. -/
theorem value_labels_of_add (hp : p.InTable) {name : HeuristicName} (hk : name.kind = .max) (ha : a ∈ p.actions)
    (happ : a.applicable s = true) {e : GuardedEffect} (he : e ∈ a.effects) (hguard : s.satisfies e.guard = true)
    {f : FactId} (hf : f ∈ e.effect.add) : ((ofProblem name p).labels s).value f ≤ 1 := by
  obtain ⟨i, ho⟩ := Operator.mem_ofActions ha he hf
  have hbelow := hp.actions a ha
  have hlt : f < p.numFacts := (hbelow.2 e he).2.1 f hf
  have hmet := (ofProblem name p).labels_met s _ ho f hf (((ofProblem name p).labels_from s).2.symm ▸ hlt)
  have hkind : (ofProblem name p).kind = .max := hk
  have hfree : ((ofProblem name p).labels s).total .max
      (ascending (a.precondition.positive ++ e.guard.positive)) = .zero := by
    refine Cost.value_injective (le_antisymm (Labels.value_total_max_le.2 (fun g hg => ?_)) zero_le)
    rw [mem_ascending, List.mem_append] at hg
    have hg : g < p.numFacts ∧ s.contains g = true := by
      rcases hg with hg | hg
      · exact ⟨hbelow.1.1 g hg, (State.satisfies_iff.1 happ).1 g hg⟩
      · exact ⟨(hbelow.2 e he).1.1 g hg, (State.satisfies_iff.1 hguard).1 g hg⟩
    exact (value_labels_of_contains (r := ofProblem name p) hg.1 hg.2).le
  rw [hkind, Labels.offer, hfree] at hmet
  exact hmet

/-- Costs that are settled in `s` and at most one above those of the labels. -/
structure Near (r : Relaxation) (s : State) (l : Labels) : Prop where
  size_eq : l.costs.size = r.numFacts
  small : ∀ f, (l.cost f).Small
  le : ∀ f, (r.labels s).value f ≤ l.value f + 1

theorem small_labels (hk : r.kind = .max) (s : State) (f : FactId) : ((r.labels s).cost f).Small := by
  unfold labels
  rw [hk]
  exact Labels.settle_induct (I := fun l => ∀ f, (l.cost f).Small)
    (fun l b o _ h => Labels.small_relax (p := (l, b)) h o) _
    (Labels.small_start _ s) f

/-- **What an operator offers to the labels it nearly offers in the state.** -/
theorem Near.relax {l : Labels} (hk : r.kind = .max) (h : r.Near s l) (b : Bool) {o : Operator} (ho : o ∈ r.operators) :
    r.Near s (Labels.relax .max (l, b) o).1 where
  size_eq := (Labels.size_relax _ _ _).trans h.size_eq
  small := Labels.small_relax (p := (l, b)) h.small o
  le f := by
    rw [Labels.value_relax]
    split
    · rename_i hf
      have hlt : f < (r.labels s).costs.size := by
        rw [(r.labels_from s).2, ← h.size_eq]
        exact hf.2
      have htotal : ((r.labels s).total .max o.pre).value ≤ (l.total .max o.pre).value + 1 := by
        refine Labels.value_total_max_le.2 (fun g hg => (h.le g).trans ?_)
        gcongr
        exact Labels.value_total_max_le.1 le_rfl g hg
      have hoffer : ((r.labels s).offer .max o).value ≤ (l.offer .max o).value + 1 :=
        (Labels.small_total_max (small_labels hk s) o.pre).value_succ_le (Labels.small_total_max h.small o.pre) htotal
      have hmet := r.labels_met s o ho f hf.1 hlt
      rw [hk] at hmet
      rcases min_choice (l.offer .max o).value (l.value f) with hmin | hmin
      · rw [hmin]
        exact hmet.trans hoffer
      · rw [hmin]
        exact h.le f
    · exact h.le f

/-- **A fact costs at most one more than it does after an action.** -/
theorem value_le_succ (hp : p.InTable) {name : HeuristicName} (hk : name.kind = .max) (ha : a ∈ p.actions)
    (happ : a.applicable s = true) (f : FactId) :
    ((ofProblem name p).labels s).value f ≤ ((ofProblem name p).labels (a.successor s)).value f + 1 := by
  have hkind : (ofProblem name p).kind = .max := hk
  have hstart : (ofProblem name p).Near s (.start p.numFacts (a.successor s)) := by
    refine ⟨Labels.size_start _ _, Labels.small_start _ _, fun f => ?_⟩
    rw [Labels.value_start]
    split
    · rename_i hf
      rcases Action.contains_successor hf.2 with hs | ⟨e, he, hguard, hadd⟩
      · rw [value_labels_of_contains (r := ofProblem name p) hf.1 hs]
        exact zero_le
      · exact (value_labels_of_add hp hk ha happ he hguard hadd).trans le_add_self
    · exact le_top
  have hsettled : (ofProblem name p).Near s ((ofProblem name p).labels (a.successor s)) := by
    rw [labels, hkind]
    exact Labels.settle_induct (I := (ofProblem name p).Near s) (fun l b o ho h => h.relax hkind b ho) _ hstart
  exact hsettled.le f

/-! ## Estimates -/

/-- Unless it counts the actions of a relaxed plan, the estimate is the cost of the goal facts together. -/
theorem value_estimate_eq_total {goal : Condition} (hgoal : ∀ g ∈ goal.positive, g < r.numFacts)
    (hk : r.kind ≠ .fastForward) (s : State) :
    (r.estimate s goal).value = ((r.labels s).total r.kind goal.positive).value := by
  unfold estimate
  split
  · rename_i hall
    rw [List.all_eq_true] at hall
    exact ((Labels.value_total_eq_zero_iff (r.labels_from s).1.exact).2 fun g hg =>
      value_labels_of_contains (hgoal g hg) (hall g hg)).symm
  · split
    · rename_i hout
      obtain ⟨g, hg, hge⟩ := List.any_eq_true.1 hout
      exact absurd (hgoal g hg) (Nat.not_lt.2 (of_decide_eq_true hge))
    · cases hkind : r.kind with
      | max => rfl
      | additive => rfl
      | fastForward => exact absurd hkind hk

/-- The estimate by the maximum is the cost of the dearest goal fact. -/
theorem value_estimate (hp : p.InTable) {name : HeuristicName} (hk : name.kind = .max) (s : State) :
    ((ofProblem name p).estimate s p.goal).value =
      (((ofProblem name p).labels s).total .max p.goal.positive).value := by
  have hkind : (ofProblem name p).kind = .max := hk
  rw [value_estimate_eq_total hp.goal.1 (by rw [hkind]; nofun), hkind]

/-- **An action lowers the estimate by at most one.** -/
theorem estimate_consistent (hp : p.InTable) {name : HeuristicName} (hk : name.kind = .max) (ha : a ∈ p.actions)
    (happ : a.applicable s = true) : ((ofProblem name p).estimate s p.goal).value ≤
      ((ofProblem name p).estimate (a.successor s) p.goal).value + 1 := by
  rw [value_estimate hp hk, value_estimate hp hk]
  refine Labels.value_total_max_le.2 (fun g hg => (value_le_succ hp hk ha happ g).trans ?_)
  gcongr
  exact Labels.value_total_max_le.1 le_rfl g hg

theorem estimate_goal {name : HeuristicName} (h : p.isGoal s = true) :
    (ofProblem name p).estimate s p.goal = .zero := by
  unfold estimate
  rw [if_pos (List.all_eq_true.2 (State.satisfies_iff.1 h).1)]

/-- **A walk lowers the estimate by its length at most.** -/
theorem estimate_le_walk (hp : p.InTable) {name : HeuristicName} (hk : name.kind = .max) {is : List Nat}
    (hw : p.Walk s is t) : ((ofProblem name p).estimate s p.goal).value ≤
      ((ofProblem name p).estimate t p.goal).value + is.length := by
  induction hw with
  | nil s => exact le_self_add
  | cons ha happ _ ih =>
    refine (estimate_consistent hp hk (List.mem_of_getElem? ha) happ).trans ?_
    rw [List.length_cons, Nat.cast_succ, ← add_assoc]
    gcongr

variable {d : Draft} {name : HeuristicName}

/-- **The dearest goal fact is a consistent and admissible estimate** of how many actions are missing to a goal; where
it is infinite, no walk leads to one. -/
theorem estimate_admissible (hb : d.build = .ok p) (hk : name = .max ∨ name = .setLevel) (s : State) :
    (∀ a ∈ p.actions, a.applicable s = true → ((ofProblem name p).estimate s p.goal).value ≤
      ((ofProblem name p).estimate (a.successor s) p.goal).value + 1) ∧
    (p.isGoal s = true → (ofProblem name p).estimate s p.goal = .zero) ∧
    (∀ is t, p.Walk s is t → p.isGoal t = true → ((ofProblem name p).estimate s p.goal).value ≤ is.length) ∧
    ((ofProblem name p).estimate s p.goal = .infinite → ∀ is t, p.Walk s is t → p.isGoal t = false) := by
  have hp := Draft.build_inTable hb
  have hkind : name.kind = .max := by rcases hk with rfl | rfl <;> rfl
  have hwalk : ∀ is t, p.Walk s is t → p.isGoal t = true →
      ((ofProblem name p).estimate s p.goal).value ≤ is.length := by
    intro is t hw hg
    have hle := estimate_le_walk hp hkind hw
    rwa [estimate_goal hg, Cost.value_zero, zero_add] at hle
  refine ⟨fun a ha happ => estimate_consistent hp hkind ha happ, estimate_goal, hwalk, fun hinf is t hw => ?_⟩
  rw [← Bool.not_eq_true]
  intro hg
  have hle := hwalk is t hw hg
  rw [hinf, Cost.value_infinite, top_le_iff] at hle
  exact ENat.natCast_ne_top _ hle

/-- The lamp is lit by no fewer than two actions. -/
theorem estimate_admissible_lamp : ∃ p, Families.conditionalLamp.build = .ok p ∧
    (ofProblem .setLevel p).estimate p.init p.goal = .finite 2 ∧
    ∀ is t, p.Walk p.init is t → p.isGoal t = true → 2 ≤ is.length := by
  obtain ⟨p, hb, hest⟩ := Draft.exists_build (d := Families.conditionalLamp)
    (fun p => (ofProblem .setLevel p).estimate p.init p.goal = .finite 2) (by decide +kernel)
  rw [decide_eq_true_eq] at hest
  refine ⟨p, hb, hest, fun is t hw hg => ?_⟩
  have hle := (estimate_admissible hb (.inr rfl) p.init).2.2.1 is t hw hg
  rw [hest, Cost.value_finite] at hle
  exact_mod_cast hle

end Relaxation
end GroundPlanner
