import GroundPlanner.Proofs.AStar.Counters
import GroundPlanner.Proofs.AStar.Outcome
import GroundPlanner.Proofs.Search.HighWater
/-!
# The statistics of a search

The counters balance between two turns (`Balanced`) and agree with what the open list counts itself (`Recorded`); the
last turn settles the goal.  The open list goes from the root alone to what a search leaves of it by pushes and pops
(`course_lists`), so its high water is the largest size it had.  Together: whatever ends a search, and wherever, its
statistics add up (`search_counters`).
-/
namespace GroundPlanner
namespace AStar

/-- The progress after a turn, whether it ended the search or not. -/
def Turn.progress : Turn → Progress
  | .more p => p
  | .done _ p => p

namespace Setup

/-- The open lists of a turn, one after each node taken off it or put on it.  A successor that is pruned leaves the
list as it is. -/
def turnLists (s : Setup) (p : Progress) : List (OpenList Nat) :=
  match p.openList.pop with
  | none => []
  | some (i, rest) =>
    match p.nodes[i]? with
    | none => [rest]
    | some n =>
      if p.closed.contains n.state || s.problem.isGoal n.state then [rest]
      else
        let next := s.problem.successors n.state
        (next.scanl (s.generate i (n.cost + 1)) (Progress.settle { p with openList := rest } i n next.length)).map
          Progress.openList

/-- The open lists of the turns that `run` takes, in order. -/
def lists (s : Setup) (T : Termination) : Nat → T.Memory → Progress → List (OpenList Nat)
  | 0, _, _ => []
  | n + 1, m, p =>
    match T.check m p.stats.explored with
    | (true, _) => []
    | (false, m) =>
      match s.advance p with
      | .more q => s.turnLists p ++ s.lists T n m q
      | .done .. => s.turnLists p

variable {s : Setup} {T : Termination} {m : T.Memory} {p q f : Progress} {o : SearchOutcome} {i cost : Nat}

/-! ## The open list -/

theorem Generated.step {x : Nat × State} (h : s.Generated i cost p x q) : p.openList.Step q.openList := by
  cases h with
  | closed => exact .same
  | known => exact .same
  | pushed => exact .push _ _ _

theorem course_scanl (next : List (Nat × State)) {l : OpenList Nat} (h : l.Step p.openList) :
    l.Course ((next.scanl (s.generate i cost) p).map Progress.openList)
      (next.foldl (s.generate i cost) p).openList := by
  induction next generalizing l p with
  | nil => exact .cons h (.nil _)
  | cons x next ih =>
    rw [List.scanl_cons]
    exact .cons h (ih (s.generated i cost p x).step)

/-- **A turn takes the open list through its lists.** -/
theorem Queue.course (hq : s.Queue p.nodes p.openList) :
    p.openList.Course (s.turnLists p) (s.advance p).progress.openList := by
  unfold turnLists Setup.advance
  cases hp : p.openList.pop with
  | none => exact .nil _
  | some x =>
    obtain ⟨i, rest⟩ := x
    obtain ⟨e, rfl, hpop⟩ := hq.sound.pop hp
    obtain ⟨n, hn, -⟩ := hq.entries e hpop.mem
    have hvis := s.visited { p with openList := rest } e.item n
    simp only [hn]
    generalize s.visit { p with openList := rest } e.item n = turn at hvis
    cases hvis with
    | stale hc =>
      simp only [show p.closed.contains n.state = true from hc, Bool.true_or, if_true]
      exact .cons (.pop hpop) (.nil _)
    | goal hc hg =>
      simp only [hg, Bool.or_true, if_true]
      exact .cons (.pop hpop) (.nil _)
    | expanded hc hg =>
      simp only [show p.closed.contains n.state = false from hc, hg, Bool.or_false, Bool.false_eq_true, if_false]
      exact course_scanl _ (.pop hpop)

theorem course_lists (hv : s.Valid p) (k : Nat) :
    p.openList.Course (s.lists T k m p) (s.run T k m p).2.openList := by
  induction k generalizing m p with
  | zero => exact .nil _
  | succ k ih =>
    have hturn := hv.queue.course
    unfold lists run
    cases T.check m p.stats.explored with
    | mk b m' =>
      cases b with
      | true => exact .nil _
      | false =>
        cases hadv : s.advance p with
        | more q =>
          rw [hadv] at hturn
          exact hturn.append (ih (hv.more hadv))
        | done o f =>
          rw [hadv] at hturn
          exact hturn

/-! ## The counters -/

/-- **The counters agree with the open list**, which counts the root too; nothing is known of open states unless
duplicates are suppressed. -/
structure Recorded (s : Setup) (p : Progress) : Prop where
  pushed_eq : p.openList.pushed = p.stats.generated + 1
  openPrunes_eq : s.search.suppressDuplicates = false → p.stats.openPrunes = 0

theorem recorded_start (s : Setup) : s.Recorded s.start :=
  ⟨rfl, fun _ => rfl⟩

theorem Recorded.generated {x : Nat × State} (hr : s.Recorded p) (h : s.Generated i cost p x q) : s.Recorded q := by
  cases h with
  | closed => exact ⟨hr.pushed_eq, hr.openPrunes_eq⟩
  | known _ hd =>
    refine ⟨hr.pushed_eq, fun hoff => ?_⟩
    rw [hd] at hoff
    cases hoff
  | pushed => exact ⟨congrArg (· + 1) hr.pushed_eq, hr.openPrunes_eq⟩

theorem Recorded.foldl (hr : s.Recorded p) (l : List (Nat × State)) : s.Recorded (l.foldl (s.generate i cost) p) :=
  List.foldlRecOn l _ hr (fun _ hq _ _ => hq.generated (s.generated _ _ _ _))

theorem Recorded.moved (hr : s.Recorded p) (h : s.Moved p q) : s.Recorded q := by
  cases h with
  | stale _ hpop => exact ⟨hpop.pushed_eq.trans hr.pushed_eq, hr.openPrunes_eq⟩
  | expanded _ hpop =>
    refine Recorded.foldl ?_ _
    exact ⟨hpop.pushed_eq.trans hr.pushed_eq, hr.openPrunes_eq⟩

/-- **What the counters of a search say where it ended**, with the goal that was reached told apart. -/
structure Settled (s : Setup) (o : SearchOutcome) (p : Progress) : Prop where
  popped_eq : p.stats.popped = p.stats.explored + p.stats.stalePops + if o.isSuccess then 1 else 0
  open_eq : p.stats.popped + p.openList.entries.length = p.stats.generated + 1
  exhausted : o = .exhausted → p.openList.entries = []
  handled_eq : p.stats.generated + p.stats.closedPrunes + p.stats.openPrunes =
    (p.expanded.map (fun n => (s.problem.successors n.state).length)).sum
  goalCost_iff : p.stats.goalCost.isSome = true ↔ ∃ plan, o = .succeeded plan
  recorded : s.Recorded p

theorem Balanced.settled_timedOut (hb : s.Balanced p) (hv : s.Valid p) (hr : s.Recorded p) :
    s.Settled .timedOut p where
  popped_eq := hb.popped_eq
  open_eq := hv.queue.sound.size_eq ▸ hb.open_eq
  exhausted h := by cases h
  handled_eq := hb.handled_eq
  goalCost_iff := by simp [hb.goalCost_eq]
  recorded := hr

/-- **A last turn settles the counters.** -/
theorem Finished.settled (h : s.Finished p o f) (hb : s.Balanced p) (hv : s.Valid p) (hr : s.Recorded p) :
    s.Settled o f := by
  cases h with
  | exhausted hnil =>
    refine ⟨hb.popped_eq, hv.queue.sound.size_eq ▸ hb.open_eq, fun _ => hnil, hb.handled_eq, ?_, hr⟩
    simp [hb.goalCost_eq]
  | goal hn hpop =>
    have hpopped := hb.popped_eq
    have hopen := hb.open_eq
    have hsize := hpop.size_eq
    have hlen := hpop.sound.size_eq
    refine ⟨?_, ?_, fun ho => (by cases ho), hb.handled_eq, ?_, hpop.pushed_eq.trans hr.pushed_eq, hr.openPrunes_eq⟩
    · exact congrArg (· + 1) hpopped
    · dsimp only [Progress.finish]
      omega
    · exact ⟨fun _ => ⟨_, rfl⟩, fun _ => rfl⟩

end Setup

variable {a : AStar} {T : Termination} {p : Problem} {r : Report}

/-- The open lists of a search, in order: the root alone, and one after each node put on the list or taken off it. -/
def openLists (a : AStar) (T : Termination) (p : Problem) : List (OpenList Nat) :=
  (a.setup p).start.openList :: (a.setup p).lists T (a.setup p).turns T.start (a.setup p).start

theorem ending_settled (a : AStar) (T : Termination) (p : Problem) :
    (a.setup p).Settled (a.ending T p).1 (a.ending T p).2 := by
  obtain ⟨q, ⟨hv, hb, hr⟩, hend⟩ := (a.ending_ends T p).inv
    (I := fun q => (a.setup p).Valid q ∧ (a.setup p).Balanced q ∧ (a.setup p).Recorded q)
    (fun _ _ hi h => ⟨hi.1.more h, hi.2.1.more hi.1 h, hi.2.2.moved (hi.1.queue.moved h)⟩)
    ⟨Setup.valid_start _, Setup.balanced_start _, Setup.recorded_start _⟩
  rcases hend with ⟨ho, hq⟩ | hlast
  · rw [ho, hq]
    exact hb.settled_timedOut hv hr
  · exact (hv.queue.finished hlast).settled hb hv hr

/-- **Different states are expanded, all of them reachable**, and each is counted. -/
theorem expandedStates_distinct (a : AStar) (T : Termination) (p : Problem) : (a.expandedStates T p).Nodup ∧
    (∀ t ∈ a.expandedStates T p, p.Reachable t) ∧
    (a.ending T p).2.stats.explored = (a.expandedStates T p).length := by
  obtain ⟨q, hv, hend⟩ := a.ending_valid T p
  have hsame : (a.ending T p).2.expanded = q.expanded ∧
      (a.ending T p).2.stats.explored = q.stats.explored := by
    rcases hend with ⟨-, heq⟩ | hfin
    · rw [heq]
      exact ⟨rfl, rfl⟩
    · exact ⟨hfin.expanded_eq, hfin.explored_eq⟩
  unfold expandedStates
  rw [hsame.1, hsame.2, List.length_reverse, List.length_map]
  refine ⟨List.nodup_reverse.2 hv.history.distinct, fun t ht => ?_, hv.history.explored_eq⟩
  obtain ⟨n, hn, rfl⟩ := List.mem_map.1 (List.mem_reverse.1 ht)
  exact hv.reachable_expanded hn

/-- **A search takes the open list through its lists**, by single pushes and pops. -/
theorem course_openLists (a : AStar) (T : Termination) (p : Problem) :
    OpenList.Course .empty (a.openLists T p) (a.ending T p).2.openList :=
  .cons (.push _ _ _) (Setup.course_lists (Setup.valid_start _) _)

/-- **The high water is the largest size of the open list**, and no more than was put on it. -/
theorem ending_highWater (a : AStar) (T : Termination) (p : Problem) :
    IsGreatest {k | ∃ l ∈ a.openLists T p, l.entries.length = k} (a.ending T p).2.openList.highWater ∧
    (a.ending T p).2.openList.highWater ≤ (a.ending T p).2.openList.pushed := by
  have hcourse := Setup.course_lists (T := T) (m := T.start) (Setup.valid_start (a.setup p)) (a.setup p).turns
  have hroot : (a.setup p).start.openList.Levelled := (OpenList.Step.push _ _ _).levelled OpenList.levelled_empty
  exact ⟨hcourse.isGreatest hroot rfl, (hcourse.levelled hroot).highWater_le⟩

/-- **The statistics of a search add up**, wherever it ended and whatever ended it. -/
theorem search_counters (h : a.search T p = .ok r) :
    r.stats.popped = r.stats.explored + r.stats.stalePops + (if r.outcome.isSuccess then 1 else 0) ∧
    r.stats.popped + (a.ending T p).2.openList.entries.length = r.stats.generated + 1 ∧
    (r.outcome = .exhausted → r.stats.popped = r.stats.generated + 1) ∧
    r.stats.generated + r.stats.closedPrunes + r.stats.openPrunes =
      ((a.expandedStates T p).map (fun t => p.actions.countP (fun b => b.applicable t))).sum ∧
    (a.suppressDuplicates = false → r.stats.openPrunes = 0) ∧
    (r.stats.goalCost.isSome = true ↔ ∃ plan, r.outcome = .succeeded plan) ∧
    r.stats.explored = (a.expandedStates T p).length ∧
    (a.expandedStates T p).Nodup ∧ (∀ t ∈ a.expandedStates T p, p.Reachable t) ∧
    OpenList.Course .empty (a.openLists T p) (a.ending T p).2.openList ∧
    IsGreatest {k | ∃ l ∈ a.openLists T p, l.entries.length = k} r.stats.openHighWater ∧
    1 ≤ r.stats.openHighWater ∧ r.stats.openHighWater ≤ r.stats.generated + 1 := by
  obtain ⟨-, rfl⟩ := search_eq_ok_iff.1 h
  have hs := a.ending_settled T p
  obtain ⟨hdistinct, hreach, hexplored⟩ := a.expandedStates_distinct T p
  obtain ⟨hgreatest, hpushed⟩ := a.ending_highWater T p
  have hsum : ((a.ending T p).2.expanded.map (fun n => (p.successors n.state).length)).sum =
      ((a.expandedStates T p).map (fun t => p.actions.countP (fun b => b.applicable t))).sum := by
    unfold expandedStates
    rw [List.map_reverse, List.sum_reverse, List.map_map]
    exact congrArg List.sum (List.map_congr_left (fun n _ => p.length_successors n.state))
  refine ⟨hs.popped_eq, hs.open_eq, fun ho => ?_, hs.handled_eq.trans hsum, hs.recorded.openPrunes_eq,
    hs.goalCost_iff, hexplored, hdistinct, hreach, a.course_openLists T p, hgreatest, ?_,
    hs.recorded.pushed_eq ▸ hpushed⟩
  · have hopen := hs.open_eq
    rwa [hs.exhausted ho] at hopen
  · exact hgreatest.2 ⟨(a.setup p).start.openList, List.mem_cons_self, rfl⟩

/-- Two ways round a cell of the grid make one node stale: of the seven that are taken off the list, five are expanded
and one is the goal, and one more is left on it. -/
theorem search_counters_grid : ∃ p r, (Families.grid 2 3).build = .ok p ∧
    (AStar.mk .max 0.5 false).search .never p = .ok r ∧ r.stats.popped = 7 ∧ r.stats.stalePops = 1 ∧
    r.stats.explored = 5 ∧ r.outcome.isSuccess = true ∧ r.stats.popped = r.stats.explored + r.stats.stalePops + 1 ∧
    ((AStar.mk .max 0.5 false).ending .never p).2.openList.entries.length = 1 ∧
    (((AStar.mk .max 0.5 false).expandedStates .never p).map
      (fun t => p.actions.countP (fun b => b.applicable t))).sum = 12 ∧
    IsGreatest {k | ∃ l ∈ (AStar.mk .max 0.5 false).openLists .never p, l.entries.length = k} 3 := by
  obtain ⟨p, r, hb, hs, hr⟩ := exists_search (a := AStar.mk .max 0.5 false) (T := .never)
    (d := Families.grid 2 3) (fun _ r => r.stats.popped == 7 && (r.stats.stalePops == 1 && (r.stats.explored == 5 &&
      (r.outcome.isSuccess && (r.stats.generated == 7 && (r.stats.closedPrunes == 5 && r.stats.openHighWater == 3))))))
    (by decide +kernel)
  simp only [Bool.and_eq_true, beq_iff_eq] at hr
  obtain ⟨hpopped, hstale, hexplored, hgoal, hgenerated, hclosed, hwater⟩ := hr
  obtain ⟨heq, hopen, -, hsum, hprunes, -, -, -, -, -, hgreatest, -, -⟩ := search_counters hs
  rw [hgoal, if_pos rfl] at heq
  have hnone := hprunes rfl
  refine ⟨p, r, hb, hs, hpopped, hstale, hexplored, hgoal, heq, ?_, ?_, hwater ▸ hgreatest⟩
  · omega
  · rw [← hsum]
    omega

end AStar
end GroundPlanner
