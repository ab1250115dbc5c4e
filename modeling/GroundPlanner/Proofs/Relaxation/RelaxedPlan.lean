import GroundPlanner.Proofs.Relaxation.Supporters
import Mathlib.Algebra.BigOperators.Fin
import Mathlib.Algebra.Order.BigOperators.Group.Finset
/-!
# The operators of a relaxed plan

A relaxed plan needs the goal facts and, in turn, the facts in the preconditions of what supports them (`Needed`).  It
consists of the supporters of all needed facts (`Relaxation.mem_relaxedPlan`): the facts on the stack and those visited
are needed, and nothing needed is left out when the stack is empty (`Collecting`).  Each fact is expanded once, so what
it may still put on the stack bounds the steps that are left (`Labels.demands`).
-/
namespace GroundPlanner

/-- The facts that a relaxed plan for `goal` makes true. -/
inductive Needed (l : Labels) (goal : List FactId) : FactId → Prop where
  | goal {f : FactId} (hf : f ∈ goal) : Needed l goal f
  | pre {f g : FactId} {o : Operator} (hf : Needed l goal f) (ho : l.supporter f = some o) (hg : g ∈ o.pre) :
    Needed l goal g

namespace Labels

/-- The number of facts that a fact puts on the stack. -/
def demand (l : Labels) (f : FactId) : Nat :=
  (l.supporter f).elim 0 (·.pre.length)

/-- What the facts not visited yet may put on the stack. -/
def demands (l : Labels) (visited : State) : Nat :=
  ∑ f ∈ (Finset.range l.supporters.size).filter (fun f => visited.contains f = false), l.demand f

variable {l : Labels} {goal : List FactId} {n : Nat} {visited : State} {f : FactId}

theorem lt_of_capped_ne_top (h : l.capped f ≠ ⊤) : f < l.costs.size :=
  lt_of_cost_ne_infinite (fun hinf => h (congrArg Cost.capped hinf))

theorem demands_insert (hf : f < l.supporters.size) (hcap : f < visited.capacity) (hnew : visited.contains f = false) :
    l.demands (visited.insert f) + l.demand f = l.demands visited := by
  have herase : (Finset.range l.supporters.size).filter (fun g => (visited.insert f).contains g = false) =
      ((Finset.range l.supporters.size).filter (fun g => visited.contains g = false)).erase f := by
    ext g
    simp only [Finset.mem_filter, Finset.mem_erase, State.contains_insert, decide_eq_true hcap, Bool.and_true,
      Bool.or_eq_false_iff, decide_eq_false_iff_not]
    constructor
    · rintro ⟨hg, hvis, hne⟩
      exact ⟨fun h => hne h.symm, hg, hvis⟩
    · rintro ⟨hne, hg, hvis⟩
      exact ⟨hg, hvis, fun h => hne h.symm⟩
  rw [demands, herase]
  exact Finset.sum_erase_add _ _ (Finset.mem_filter.2 ⟨Finset.mem_range.2 hf, hnew⟩)

theorem demands_le (l : Labels) (visited : State) :
    l.demands visited ≤ l.supporters.foldl (fun n o => n + o.elim 0 (·.pre.length)) 0 := by
  have hlist : l.supporters.toList.map (fun o => o.elim 0 (·.pre.length)) =
      (List.range l.supporters.size).map l.demand := by
    refine List.ext_getElem (by simp) (fun i hi _ => ?_)
    rw [List.length_map, Array.length_toList] at hi
    simp [demand, supporter, Array.getD_eq_getD_getElem?, hi]
  calc l.demands visited ≤ ∑ f ∈ Finset.range l.supporters.size, l.demand f :=
        Finset.sum_le_sum_of_subset (Finset.filter_subset _ _)
    _ = ((List.range l.supporters.size).map l.demand).sum := rfl
    _ = l.supporters.foldl (fun n o => n + o.elim 0 (·.pre.length)) 0 := by
        rw [← hlist, ← Array.foldl_toList, List.sum_eq_foldl, List.foldl_map]

end Labels

theorem Needed.capped_ne_top {l : Labels} {goal : List FactId} {n : Nat} {f : FactId} (hl : l.Supported n)
    (hgoal : ∀ g ∈ goal, l.capped g ≠ ⊤) (h : Needed l goal f) : l.capped f ≠ ⊤ := by
  induction h with
  | goal hf => exact hgoal _ hf
  | pre _ ho hg ih => exact hl.pre _ _ ih ho _ hg

theorem Needed.lt {l : Labels} {goal : List FactId} {n : Nat} {f : FactId} (hl : l.Supported n)
    (hgoal : ∀ g ∈ goal, l.capped g ≠ ⊤) (h : Needed l goal f) : f < n :=
  hl.size_eq ▸ Labels.lt_of_capped_ne_top (h.capped_ne_top hl hgoal)

theorem State.contains_insert_iff {s : State} {f g : FactId} (hf : f < s.capacity) :
    (s.insert f).contains g = true ↔ g = f ∨ s.contains g = true := by
  rw [contains_insert, Bool.or_eq_true, Bool.and_eq_true, decide_eq_true_iff, decide_eq_true_iff, and_iff_left hf,
    or_comm, eq_comm]

namespace Relaxation

variable {l : Labels} {goal stack : List FactId} {n k : Nat} {visited : State} {chosen : List Operator} {f : FactId}

/-- A fact is visited or waits on the stack. -/
def Seen (visited : State) (stack : List FactId) (f : FactId) : Prop :=
  visited.contains f = true ∨ f ∈ stack

theorem Seen.skip {g : FactId} (h : Seen visited (f :: stack) g) (hf : visited.contains f = true) :
    Seen visited stack g := by
  rcases h with hvis | hmem
  · exact .inl hvis
  · rcases List.mem_cons.1 hmem with rfl | hmem
    · exact .inl hf
    · exact .inr hmem

theorem Seen.visit {g : FactId} (h : Seen visited (f :: stack) g) (hf : f < visited.capacity) (fs : List FactId) :
    Seen (visited.insert f) (fs ++ stack) g := by
  unfold Seen
  rw [State.contains_insert_iff hf, List.mem_append]
  rcases h with hvis | hmem
  · exact .inl (.inr hvis)
  · rcases List.mem_cons.1 hmem with rfl | hmem
    · exact .inl (.inl rfl)
    · exact .inr (.inr hmem)

/-- **What holds between two steps of the collection.** -/
structure Collecting (n : Nat) (l : Labels) (goal stack : List FactId) (visited : State) (chosen : List Operator) :
    Prop where
  room : n ≤ visited.capacity
  stack_needed : ∀ f ∈ stack, Needed l goal f
  visited_needed : ∀ f, visited.contains f = true → Needed l goal f
  goal_seen : ∀ f ∈ goal, Seen visited stack f
  pre_seen : ∀ f o, visited.contains f = true → l.supporter f = some o → ∀ g ∈ o.pre, Seen visited stack g
  chosen_iff : ∀ o, o ∈ chosen ↔ ∃ f, visited.contains f = true ∧ l.supporter f = some o

theorem Collecting.skip (h : Collecting n l goal (f :: stack) visited chosen) (hf : visited.contains f = true) :
    Collecting n l goal stack visited chosen where
  room := h.room
  stack_needed g hg := h.stack_needed g (List.mem_cons_of_mem f hg)
  visited_needed := h.visited_needed
  goal_seen g hg := (h.goal_seen g hg).skip hf
  pre_seen g o hg ho g' hg' := (h.pre_seen g o hg ho g' hg').skip hf
  chosen_iff := h.chosen_iff

/-- **Visiting a fact** puts the precondition of its supporter on the stack, if it has one. -/
theorem Collecting.visit (h : Collecting n l goal (f :: stack) visited chosen) (hf : f < n) :
    Collecting n l goal ((l.supporter f).elim [] (·.pre.reverse) ++ stack) (visited.insert f)
      ((l.supporter f).toList ++ chosen) := by
  have hcap := Nat.lt_of_lt_of_le hf h.room
  refine ⟨?_, fun g hg => ?_, fun g hg => ?_, fun g hg => (h.goal_seen g hg).visit hcap _, fun g o hg ho g' hg' => ?_,
    fun o => ?_⟩
  · rw [State.capacity, State.words_insert]
    exact h.room
  · rcases List.mem_append.1 hg with hg | hg
    · cases ho : l.supporter f with
      | none =>
        rw [ho] at hg
        cases hg
      | some o =>
        rw [ho] at hg
        exact .pre (h.stack_needed f List.mem_cons_self) ho (List.mem_reverse.1 hg)
    · exact h.stack_needed g (List.mem_cons_of_mem f hg)
  · rcases (State.contains_insert_iff hcap).1 hg with rfl | hg
    · exact h.stack_needed g List.mem_cons_self
    · exact h.visited_needed g hg
  · rcases (State.contains_insert_iff hcap).1 hg with rfl | hg
    · rw [ho]
      exact .inr (List.mem_append_left _ (List.mem_reverse.2 hg'))
    · exact (h.pre_seen g o hg ho g' hg').visit hcap _
  · rw [List.mem_append, Option.mem_toList, h.chosen_iff]
    simp only [State.contains_insert_iff hcap]
    constructor
    · rintro (ho | ⟨g, hg, ho⟩)
      · exact ⟨f, .inl rfl, ho⟩
      · exact ⟨g, .inr hg, ho⟩
    · rintro ⟨g, rfl | hg, ho⟩
      · exact .inl ho
      · exact .inr ⟨g, hg, ho⟩

/-- **The collection ends with an empty stack**, if the steps suffice. -/
theorem Collecting.collect (hsize : l.supporters.size = n) (hlt : ∀ f, Needed l goal f → f < n)
    (h : Collecting n l goal stack visited chosen) (hk : stack.length + l.demands visited ≤ k) :
    ∃ visited', Collecting n l goal [] visited' (collect l k stack visited chosen) := by
  induction k generalizing stack visited chosen with
  | zero =>
    cases stack with
    | nil => exact ⟨visited, h⟩
    | cons f stack =>
      rw [List.length_cons] at hk
      omega
  | succ k ih =>
    cases stack with
    | nil => exact ⟨visited, h⟩
    | cons f stack =>
      rw [List.length_cons] at hk
      unfold Relaxation.collect
      split
      · rename_i hvis
        exact ih (h.skip hvis) (by omega)
      · rename_i hnew
        have hf := hlt f (h.stack_needed f List.mem_cons_self)
        have hstep := h.visit hf
        -- What the visit puts on the stack is demanded no longer, and the fact itself is taken off.
        have hless := Labels.demands_insert (l := l) (hsize ▸ hf) (Nat.lt_of_lt_of_le hf h.room)
          (Bool.eq_false_iff.2 hnew)
        unfold Labels.demand at hless
        split
        · rename_i ho
          rw [ho] at hstep hless
          rw [Option.elim_none] at hless
          exact ih hstep (by omega)
        · rename_i o ho
          rw [ho] at hstep hless
          rw [Option.elim_some] at hless
          exact ih hstep (by rw [List.length_append, List.length_reverse]; omega)

/-- **A relaxed plan consists of the supporters of the needed facts.** -/
theorem mem_relaxedPlan {r : Relaxation} (hsize : l.supporters.size = r.numFacts)
    (hlt : ∀ f, Needed l goal f → f < r.numFacts) {o : Operator} :
    o ∈ r.relaxedPlan l goal ↔ ∃ f, Needed l goal f ∧ l.supporter f = some o := by
  have hnone : ∀ f, ¬ (State.empty r.numFacts).contains f = true := fun f => by
    rw [State.contains_empty]
    exact Bool.false_ne_true
  have hstart : Collecting r.numFacts l goal goal.reverse (.empty r.numFacts) [] :=
    { room := State.le_capacity_empty _
      stack_needed := fun f hf => .goal (List.mem_reverse.1 hf)
      visited_needed := fun f hf => absurd hf (hnone f)
      goal_seen := fun f hf => .inr (List.mem_reverse.2 hf)
      pre_seen := fun f _ hf => absurd hf (hnone f)
      chosen_iff := fun _ => iff_of_false List.not_mem_nil (fun ⟨f, hf, _⟩ => hnone f hf) }
  obtain ⟨visited, h⟩ := hstart.collect hsize hlt (k := goal.length +
    l.supporters.foldl (fun n o => n + o.elim 0 (·.pre.length)) 0) (by
      rw [List.length_reverse]
      exact Nat.add_le_add_left (l.demands_le _) _)
  have hvisited : ∀ f, visited.contains f = true ↔ Needed l goal f := by
    refine fun f => ⟨h.visited_needed f, fun hf => ?_⟩
    induction hf with
    | goal hf => exact (h.goal_seen _ hf).resolve_right List.not_mem_nil
    | pre _ ho hg ih => exact (h.pre_seen _ _ ih ho _ hg).resolve_right List.not_mem_nil
  unfold relaxedPlan
  rw [h.chosen_iff]
  simp only [hvisited]

end Relaxation
end GroundPlanner
