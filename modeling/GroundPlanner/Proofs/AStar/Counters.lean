import GroundPlanner.Proofs.AStar.Run
import Mathlib.Algebra.Group.Action.Defs
import Mathlib.Algebra.GroupWithZero.Nat
import Mathlib.Algebra.Order.BigOperators.Group.List
import Mathlib.Algebra.Order.Group.Nat
/-!
# The counters of a search

Every successor of an expanded node is generated, or pruned as closed or as known (`Handled`).  So the counters balance
between two turns (`Balanced`): what was taken off the open list and what is left on it is what was generated, and the
root.  A turn keeps the balance (`Balanced.more`) and takes one node off the list (`Valid.popped_more`).
-/
namespace GroundPlanner
namespace AStar
namespace Setup

variable {s : Setup} {p q r : Progress} {i cost k l : Nat} {x : Nat × State}

/-- **What handling `k` successors counts.** -/
structure Handled (k : Nat) (p q : Progress) : Prop where
  handled_eq : q.stats.generated + q.stats.closedPrunes + q.stats.openPrunes =
    p.stats.generated + p.stats.closedPrunes + p.stats.openPrunes + k
  size_eq : q.openList.size + p.stats.generated = p.openList.size + q.stats.generated
  popped_eq : q.stats.popped = p.stats.popped
  stalePops_eq : q.stats.stalePops = p.stats.stalePops
  goalCost_eq : q.stats.goalCost = p.stats.goalCost

theorem Handled.trans (h : Handled k p q) (h' : Handled l q r) : Handled (k + l) p r where
  handled_eq := by
    rw [h'.handled_eq, h.handled_eq]
    omega
  size_eq := by
    have hsize := h.size_eq
    have hsize' := h'.size_eq
    omega
  popped_eq := h'.popped_eq.trans h.popped_eq
  stalePops_eq := h'.stalePops_eq.trans h.stalePops_eq
  goalCost_eq := h'.goalCost_eq.trans h.goalCost_eq

theorem Generated.handled (h : s.Generated i cost p x q) : Handled 1 p q := by
  cases h with
  | closed => exact ⟨by dsimp only; omega, rfl, rfl, rfl, rfl⟩
  | known => exact ⟨by dsimp only; omega, rfl, rfl, rfl, rfl⟩
  | pushed =>
    refine ⟨by dsimp only [enqueue]; omega, ?_, rfl, rfl, rfl⟩
    dsimp only [enqueue, OpenList.push]
    omega

theorem handled_foldl (s : Setup) (i cost : Nat) (p : Progress) (l : List (Nat × State)) :
    Handled l.length p (l.foldl (s.generate i cost) p) := by
  induction l generalizing p with
  | nil => exact ⟨rfl, rfl, rfl, rfl, rfl⟩
  | cons x l ih =>
    rw [List.length_cons, Nat.add_comm, List.foldl_cons]
    exact (s.generated i cost p x).handled.trans (ih _)

/-- **The counters of a search balance.** -/
structure Balanced (s : Setup) (p : Progress) : Prop where
  popped_eq : p.stats.popped = p.stats.explored + p.stats.stalePops
  open_eq : p.stats.popped + p.openList.size = p.stats.generated + 1
  handled_eq : p.stats.generated + p.stats.closedPrunes + p.stats.openPrunes =
    (p.expanded.map (fun n => (s.problem.successors n.state).length)).sum
  goalCost_eq : p.stats.goalCost = none

theorem balanced_start (s : Setup) : s.Balanced s.start :=
  ⟨rfl, rfl, rfl, rfl⟩

theorem Balanced.more (h : s.Balanced p) (hv : s.Valid p) (hm : s.advance p = .more q) : s.Balanced q := by
  have hpopped := h.popped_eq
  have hopen := h.open_eq
  have hhandled := h.handled_eq
  cases hv.queue.moved hm with
  | stale hn hpop hq hc =>
    have hsize := hpop.size_eq
    refine ⟨?_, ?_, ?_, h.goalCost_eq⟩
    · dsimp only [Progress.skip]
      omega
    · dsimp only [Progress.skip]
      omega
    · rw [expanded_skip]
      exact hhandled
  | @expanded i n rest hn hpop hq hc hg =>
    have hsize := hpop.size_eq
    have hexp := (hv.history.openList rest).expanded_cons hn hc hg (s.problem.successors n.state) (n.cost + 1)
    have hold : ({ p with openList := rest } : Progress).expanded = p.expanded := rfl
    set mid := Progress.settle { p with openList := rest } i n (s.problem.successors n.state).length
    have hpop' : mid.stats.popped = p.stats.popped + 1 := rfl
    have hexplored : mid.stats.explored = p.stats.explored + 1 := rfl
    have hstale : mid.stats.stalePops = p.stats.stalePops := rfl
    have hrest : mid.openList.size = rest.size := rfl
    have hgen : mid.stats.generated = p.stats.generated := rfl
    have hx := s.extends_foldl i (n.cost + 1) mid (s.problem.successors n.state)
    have hh := s.handled_foldl i (n.cost + 1) mid (s.problem.successors n.state)
    have hgrowth := hh.size_eq
    refine ⟨?_, ?_, ?_, hh.goalCost_eq.trans h.goalCost_eq⟩
    · rw [hh.popped_eq, hh.stalePops_eq, hx.explored_eq]
      omega
    · rw [hh.popped_eq]
      omega
    · rw [hh.handled_eq, hexp, hold, List.map_cons, List.sum_cons, ← hhandled]
      exact Nat.add_comm _ _

/-- **A turn takes one node off the open list.** -/
theorem Valid.popped_more (hv : s.Valid p) (hm : s.advance p = .more q) : q.stats.popped = p.stats.popped + 1 := by
  cases hv.queue.moved hm with
  | stale => rfl
  | expanded => exact (s.handled_foldl _ _ _ _).popped_eq

/-- **A turn expands one node, or none.** -/
theorem Valid.explored_more (hv : s.Valid p) (hm : s.advance p = .more q) :
    q.stats.explored = p.stats.explored ∨ q.stats.explored = p.stats.explored + 1 := by
  cases hv.queue.moved hm with
  | stale => exact .inl rfl
  | expanded => exact .inr (s.extends_foldl _ _ _ _).explored_eq

/-- Each expansion generates one node for each action at most. -/
theorem Balanced.generated_le (h : s.Balanced p) (hv : s.Valid p) :
    p.stats.generated ≤ s.problem.actions.length * p.stats.explored := by
  have hsum := List.sum_le_card_nsmul (p.expanded.map (fun n => (s.problem.successors n.state).length))
    s.problem.actions.length (fun k hk => by
      obtain ⟨n, -, rfl⟩ := List.mem_map.1 hk
      exact s.problem.length_successors_le n.state)
  rw [List.length_map, smul_eq_mul, Nat.mul_comm, ← h.handled_eq, ← hv.history.explored_eq] at hsum
  omega

/-- A last turn takes no more nodes off the open list than were generated, and the root. -/
theorem Balanced.popped_le {o : SearchOutcome} (h : s.Balanced p) (hf : s.Finished p o q) :
    q.stats.popped ≤ p.stats.generated + 1 := by
  have hopen := h.open_eq
  cases hf with
  | exhausted => omega
  | goal hn hpop =>
    have hsize := hpop.size_eq
    dsimp only [Progress.finish]
    omega

end Setup
end AStar
end GroundPlanner
