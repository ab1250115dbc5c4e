import GroundPlanner.Proofs.Walk
import GroundPlanner.Search.Rollouts
/-!
# What a rollout walks

A rollout tests for the goal before each of its steps, so the states that it leaves behind are no goals: it walks an
`Approach`.  `Ended` lists how it may end, and `walk_ended` says that it ends in one of these ways.
-/
namespace GroundPlanner
namespace Problem

/-- A walk on which no state before the last is a goal. -/
inductive Approach (p : Problem) : State → List Nat → State → Prop where
  | nil (s : State) : Approach p s [] s
  | cons {s t : State} {i : Nat} {is : List Nat} {a : Action} (hg : p.isGoal s = false)
      (ha : p.actions[i]? = some a) (happ : a.applicable s = true) (hw : Approach p (a.successor s) is t) :
      Approach p s (i :: is) t

variable {p : Problem} {s t : State} {is : List Nat}

theorem Approach.walk (h : p.Approach s is t) : p.Walk s is t := by
  induction h with
  | nil s => exact .nil s
  | cons _ ha happ _ ih => exact .cons ha happ ih

/-- **Stopped before its end, an approach is at a state that is no goal.** -/
theorem Approach.take (h : p.Approach s is t) {k : Nat} (hk : k < is.length) :
    ∃ u, p.Walk s (is.take k) u ∧ p.isGoal u = false := by
  induction h generalizing k with
  | nil s => exact absurd hk (Nat.not_lt_zero k)
  | cons hg ha happ _ ih =>
    cases k with
    | zero => exact ⟨_, .nil _, hg⟩
    | succ k =>
      obtain ⟨u, hw, hu⟩ := ih (Nat.lt_of_succ_lt_succ hk)
      exact ⟨u, .cons ha happ hw, hu⟩

/-- An approach is a walk that meets no goal before its last state. -/
theorem approach_iff : p.Approach s is t ↔ p.Walk s is t ∧ ∀ u ∈ (p.statesAlong s is).dropLast, p.isGoal u = false := by
  constructor
  · intro h
    refine ⟨h.walk, ?_⟩
    induction h with
    | nil s => exact fun u hu => absurd hu List.not_mem_nil
    | cons hg ha _ _ ih =>
      rw [statesAlong_cons ha, List.dropLast_cons_of_ne_nil (statesAlong_ne_nil _ _)]
      exact List.forall_mem_cons.2 ⟨hg, ih⟩
  · rintro ⟨hw, hgoals⟩
    induction hw with
    | nil s => exact .nil s
    | cons ha happ _ ih =>
      rw [statesAlong_cons ha, List.dropLast_cons_of_ne_nil (statesAlong_ne_nil _ _)] at hgoals
      obtain ⟨hg, hgoals⟩ := List.forall_mem_cons.1 hgoals
      exact .cons hg ha happ (ih hgoals)

end Problem

namespace Rollouts

open Problem (Approach)

/-- **How a rollout may end** that started in `s` with room for `depth` steps and took the actions `is`. -/
inductive Ended (p : Problem) (depth : Nat) (s : State) : RolloutEnd → List Nat → Prop where
  | goal {is : List Nat} {t : State} (hw : p.Approach s is t) (hlen : is.length < depth) (hg : p.isGoal t = true) :
    Ended p depth s .goal is
  | deadEnd {is : List Nat} {t : State} (hw : p.Approach s is t) (hlen : is.length < depth)
      (hg : p.isGoal t = false) (hnone : p.options t = []) : Ended p depth s .deadEnd is
  | depthLimit {is : List Nat} {t : State} (hw : p.Approach s is t) (hlen : is.length = depth) :
    Ended p depth s .depthLimit is
  | timeLimit {is : List Nat} {t : State} (hw : p.Approach s is t) (hlen : is.length < depth) :
    Ended p depth s .timeLimit is

variable {p : Problem} {s : State} {is : List Nat} {depth : Nat} {e : RolloutEnd}

/-- A step in front makes the rollout longer and leaves its end as it is. -/
theorem Ended.step {i : Nat} {a : Action} (hg : p.isGoal s = false) (ha : p.actions[i]? = some a)
    (happ : a.applicable s = true) (h : Ended p depth (a.successor s) e is) : Ended p (depth + 1) s e (i :: is) := by
  cases h with
  | goal hw hlen hgoal => exact .goal (.cons hg ha happ hw) (Nat.succ_lt_succ hlen) hgoal
  | deadEnd hw hlen hgoal hnone => exact .deadEnd (.cons hg ha happ hw) (Nat.succ_lt_succ hlen) hgoal hnone
  | depthLimit hw hlen => exact .depthLimit (.cons hg ha happ hw) (congrArg (· + 1) hlen)
  | timeLimit hw hlen => exact .timeLimit (.cons hg ha happ hw) (Nat.succ_lt_succ hlen)

/-- **A walk ends in one of these ways**, and its path is what was done before and then the actions that it took. -/
theorem walk_ended (T : Termination) (R : RandomSource) (p : Problem) (steps depth : Nat) (m : T.Memory)
    (r : R.Memory) (s : State) (done : List Nat) :
    ∃ is, (walk T R p steps depth m r s done).path = done.reverse ++ is ∧
      Ended p depth s (walk T R p steps depth m r s done).finish is := by
  induction depth generalizing m r s done with
  | zero => exact ⟨[], (List.append_nil _).symm, .depthLimit (.nil s) rfl⟩
  | succ depth ih =>
    unfold walk
    split
    · exact ⟨[], (List.append_nil _).symm, .timeLimit (.nil s) (Nat.succ_pos depth)⟩
    · split
      · rename_i hg
        exact ⟨[], (List.append_nil _).symm, .goal (.nil s) (Nat.succ_pos depth) hg⟩
      · rename_i hg
        rw [Bool.not_eq_true] at hg
        split
        · rename_i hnone
          exact ⟨[], (List.append_nil _).symm, .deadEnd (.nil s) (Nat.succ_pos depth) hg hnone⟩
        · rename_i o os hsome
          -- Whatever is drawn, it is the place of an applicable action.
          generalize R.below (o :: os).length (Nat.succ_pos _) r = drawn
          obtain ⟨k, r'⟩ := drawn
          have hmem : (o :: os)[k] ∈ o :: os := List.getElem_mem _
          simp only
          generalize (o :: os)[k] = chosen at hmem
          obtain ⟨i, a⟩ := chosen
          rw [← hsome] at hmem
          obtain ⟨ha, happ⟩ := Problem.mem_options.1 hmem
          obtain ⟨is, hpath, hend⟩ := ih _ r' (a.successor s) (i :: done)
          refine ⟨i :: is, ?_, hend.step hg ha happ⟩
          rw [hpath, List.reverse_cons, List.append_assoc, List.singleton_append]

end Rollouts
end GroundPlanner
