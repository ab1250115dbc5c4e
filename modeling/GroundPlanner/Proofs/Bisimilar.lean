import GroundPlanner.Proofs.Walk
import GroundPlanner.Search.Rollouts
import Mathlib.Data.List.Forall2
/-!
# Problems that the searches do not tell apart

Two problems are bisimilar if their states correspond: in states that correspond the same actions apply, by index, and
lead to states that correspond, and both are goals or neither is (`Problem.Bisimilar`).  A walk depends on nothing
else, so with one source of random words the rollouts on both problems are the same (`Rollouts.searchWith_congr`).
-/
namespace GroundPlanner

/-- The states of two problems correspond through `R`. -/
structure Problem.Bisimilar (R : State → State → Prop) (p q : Problem) : Prop where
  requirements_eq : q.requirements = p.requirements
  init : R p.init q.init
  eq_iff : ∀ {s s' t t' : State}, R s t → R s' t' → (t' = t ↔ s' = s)
  isGoal_eq : ∀ {s t : State}, R s t → q.isGoal t = p.isGoal s
  options : ∀ {s t : State}, R s t →
    List.Forall₂ (fun x y => y.1 = x.1 ∧ R (x.2.successor s) (y.2.successor t)) (p.options s) (q.options t)

variable {R : State → State → Prop} {p q : Problem} {s t : State}

theorem Problem.Bisimilar.successors (h : p.Bisimilar R q) (hst : R s t) :
    List.Forall₂ (fun x y => y.1 = x.1 ∧ R x.2 y.2) (p.successors s) (q.successors t) := by
  unfold Problem.successors
  rw [List.forall₂_map_left_iff, List.forall₂_map_right_iff]
  exact h.options hst

namespace Rollouts

variable {T : Termination} {Q : RandomSource}

/-- The source draws alike among equally many. -/
theorem below_congr {m n : Nat} (h : n = m) (hm : 0 < m) (hn : 0 < n) (r : Q.Memory) :
    (Q.below n hn r).1.val = (Q.below m hm r).1.val ∧ (Q.below n hn r).2 = (Q.below m hm r).2 := by
  subst h
  exact ⟨rfl, rfl⟩

/-- **Walks from states that correspond are the same.** -/
theorem walk_congr (h : p.Bisimilar R q) (steps depth : Nat) (hst : R s t) (m : T.Memory) (r : Q.Memory)
    (done : List Nat) : walk T Q q steps depth m r t done = walk T Q p steps depth m r s done := by
  induction depth generalizing s t m r done with
  | zero => rfl
  | succ depth ih =>
    have hopts := h.options hst
    unfold walk
    rw [h.isGoal_eq hst]
    generalize p.options s = xs at hopts
    generalize q.options t = ys at hopts
    split
    · rfl
    · rename_i m _
      split
      · rfl
      · have hall := hopts
        cases hopts with
        | nil => rfl
        | @cons x y xs ys _ hrest =>
          -- Both lists are equally long, so the source draws the same place in both.
          obtain ⟨hk, hr⟩ := below_congr (Q := Q) (congrArg (· + 1) hrest.length_eq.symm) (Nat.succ_pos xs.length)
            (Nat.succ_pos ys.length) r
          obtain ⟨hindex, hnext⟩ := hall.get (Q.below (xs.length + 1) (Nat.succ_pos _) r).1.isLt
            (hk ▸ (Q.below (ys.length + 1) (Nat.succ_pos _) r).1.isLt)
          simp only [List.get_eq_getElem, ← hk] at hindex hnext
          have hsame := ih hnext m (Q.below (ys.length + 1) (Nat.succ_pos _) r).2 ((y :: ys)[(Q.below (ys.length + 1)
            (Nat.succ_pos _) r).1.val].1 :: done)
          refine hsame.trans ?_
          rw [hindex, hr]
          simp only [hk]
          rfl

/-- **Rollouts on bisimilar problems are the same.** -/
theorem run_congr (h : p.Bisimilar R q) (depth n : Nat) (m : T.Memory) (r : Q.Memory) (f : Progress) :
    run T Q q depth n m r f = run T Q p depth n m r f := by
  induction n generalizing m r f with
  | zero => rfl
  | succ n ih =>
    unfold run
    split
    · rfl
    · simp only [walk_congr h _ _ h.init, ih]

/-- **Searches by rollouts on bisimilar problems give the same report.** -/
theorem searchWith_congr (h : p.Bisimilar R q) (b : Rollouts) (T : Termination) (Q : RandomSource) :
    b.searchWith T Q q = b.searchWith T Q p := by
  unfold searchWith enter check
  rw [h.requirements_eq, run_congr h]

end Rollouts
end GroundPlanner
