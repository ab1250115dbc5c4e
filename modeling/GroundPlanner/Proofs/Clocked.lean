import GroundPlanner.Proofs.AStar.Ending
import GroundPlanner.Proofs.Rollouts.Budget
import GroundPlanner.Search.Clocked
/-!
# Searches in slices

A host here is any world, of a type `σ`, that a look at the clock and a record may change in any way.  A search with A*
in slices takes the turns of a search in one piece: a slice that is stopped has taken a turn at least, and what follows
it goes on from where it stopped (`Ends.resume`).  So if no look at the clock finds the deadline passed (`InTime`), the
search ends like one that nothing stops (`InTime.runUntil_eq`).  Of rollouts in slices it only matters that they are
rollouts: their best path leads to a goal, in time or not (`Planner.runRolloutsWith_ok`).
-/
namespace GroundPlanner

theorem run_bind {σ α β : Type} (x : StateM σ α) (f : α → StateM σ β) (w : σ) :
    (x >>= f).run w = (f (x.run w).1).run (x.run w).2 :=
  rfl

/-- After a step that fails nothing is run. -/
theorem run_bindExcept {ε σ α β : Type} (x : ExceptT ε (StateM σ) α) (f : α → ExceptT ε (StateM σ) β) (w : σ) :
    ((x >>= f).run.run w).1 = (x.run.run w).1 >>= fun a => ((f a).run.run (x.run.run w).2).1 := by
  change (ExceptT.bindCont f (x.run.run w).1 (x.run.run w).2).1 = _
  cases (x.run.run w).1 <;> rfl

variable {σ : Type} [Host (StateM σ)]

namespace Host

/-- What the clock shows, and the world after the look at it. -/
def look (w : σ) : Duration × σ :=
  (now : StateM σ Duration).run w

/-- The world in which records were logged. -/
def after (rs : List Log.Record) (w : σ) : σ :=
  ((logAll rs : StateM σ Unit).run w).2

end Host

namespace AStar
namespace Setup

variable {s : Setup} {T : Termination} {m : T.Memory} {o : SearchOutcome} {p q f : Progress} {deadline : Duration}
  {n : Nat} {w : σ}

/-! ## Slices of a search with A* -/

def slice (s : Setup) (p : Progress) : SearchOutcome × Progress :=
  s.run (.ofLimits [.checks sliceLength]) s.turns (Termination.ofLimits [.checks sliceLength]).start p

/-- **No look at the clock finds the deadline passed.** -/
def InTime (s : Setup) (deadline : Duration) : Nat → Progress → σ → Prop
  | 0, _, _ => True
  | n + 1, p, w => (Host.look w).1.nanos < deadline.nanos ∧
    ((s.slice p).1 = .timedOut → s.InTime deadline n (s.slice p).2 (Host.look w).2)

theorem inTime_of_clock (h : ∀ w : σ, (Host.look w).1.nanos < deadline.nanos) : s.InTime deadline n p w := by
  induction n generalizing p w with
  | zero => trivial
  | succ n ih => exact ⟨h w, fun _ => ih⟩

theorem Ends.unstopped (h : s.Ends T m p o f) (ho : o ≠ .timedOut) : s.Ends .never () p o f := by
  induction h with
  | stopped => exact absurd rfl ho
  | last _ ha => exact .last rfl ha
  | turn _ ha _ ih => exact .turn rfl ha (ih ho)

/-- **A search that was stopped may go on.** -/
theorem Ends.resume (h : s.Ends T m p .timedOut q) (hv : s.Valid p) (h' : s.Ends .never () q o f) :
    s.Ends .never () p o f := by
  generalize ho : SearchOutcome.timedOut = o' at h
  induction h with
  | stopped => exact h'
  | last _ ha =>
    subst ho
    cases hv.queue.finished ha
  | turn _ ha _ ih => exact .turn rfl ha (ih (hv.more ha) h' ho)

/-- A search that is stopped, but not at once, has taken a turn. -/
theorem Ends.potential_lt (h : s.Ends T m p .timedOut q) (hv : s.Valid p)
    (hm : (T.check m p.stats.explored).1 = false) : s.Valid q ∧ s.potential q < s.potential p := by
  cases h with
  | stopped hs =>
    rw [hs] at hm
    cases hm
  | last _ ha => cases hv.queue.finished ha
  | @turn _ _ _ p' _ _ _ ha he =>
    have hlt := hv.potential_lt ha
    obtain ⟨q', ⟨hv', hle⟩, hend⟩ := he.inv (I := fun x => s.Valid x ∧ s.potential x ≤ s.potential p')
      (fun x y hx hxy => ⟨hx.1.more hxy, Nat.le_trans (Nat.le_of_lt (hx.1.potential_lt hxy)) hx.2⟩)
      ⟨hv.more ha, Nat.le_refl _⟩
    rcases hend with ⟨-, rfl⟩ | hadv
    · exact ⟨hv', Nat.lt_of_le_of_lt hle hlt⟩
    · cases hv'.queue.finished hadv

theorem runUntil_succ (s : Setup) (deadline : Duration) (n : Nat) (p : Progress) {w : σ}
    (h : (Host.look w).1.nanos < deadline.nanos) :
    ((s.runUntil deadline (n + 1) p : StateM σ _).run w).1 =
      if (s.slice p).1 = .timedOut then ((s.runUntil deadline n (s.slice p).2 : StateM σ _).run (Host.look w).2).1
      else s.slice p := by
  have hnot : ¬ deadline.nanos ≤ (Host.look w).1.nanos := Nat.not_le.2 h
  unfold Host.look at hnot ⊢
  rw [runUntil, run_bind, if_neg hnot]
  dsimp only
  unfold slice
  generalize s.run (.ofLimits [.checks sliceLength]) s.turns (Termination.ofLimits [.checks sliceLength]).start p = r
  obtain ⟨o, q⟩ := r
  cases o <;> rfl

/-- **In time, the slices make one search** that nothing stops. -/
theorem InTime.ends (h : s.InTime deadline n p w) (hv : s.Valid p) (hn : s.potential p < n)
    (hturns : s.potential p < s.turns) : s.Ends .never () p ((s.runUntil deadline n p : StateM σ _).run w).1.1
      ((s.runUntil deadline n p : StateM σ _).run w).1.2 := by
  -- By the slices that are left: a stopped one lowers the potential, so they last until the end.
  induction n generalizing p w with
  | zero => exact absurd hn (Nat.not_lt_zero _)
  | succ n ih =>
    obtain ⟨hlook, hrest⟩ := h
    have hslice : s.Ends (.ofLimits [.checks sliceLength]) _ p (s.slice p).1 (s.slice p).2 := run_ends _ hv hturns
    rw [runUntil_succ s deadline n p hlook]
    by_cases ho : (s.slice p).1 = .timedOut
    · rw [if_pos ho]
      rw [ho] at hslice
      obtain ⟨hv', hlt⟩ := hslice.potential_lt hv rfl
      exact hslice.resume hv (ih (hrest ho) hv' (Nat.lt_of_lt_of_le hlt (Nat.le_of_lt_succ hn))
        (Nat.lt_trans hlt hturns))
    · rw [if_neg ho]
      exact hslice.unstopped ho

end Setup

/-- **In time, a search in slices ends like a search that nothing stops.** -/
theorem runUntil_eq {a : AStar} {p : Problem} {deadline : Duration} {w : σ}
    (h : (a.setup p).InTime deadline (a.setup p).turns (a.setup p).start w) :
    (((a.setup p).runUntil deadline (a.setup p).turns (a.setup p).start : StateM σ _).run w).1 =
      a.ending .never p := by
  obtain ⟨ho, hf⟩ :=
    (h.ends (Setup.valid_start _) (a.potential_lt_turns p) (a.potential_lt_turns p)).unique (a.ending_ends .never p)
  exact Prod.ext ho hf

end AStar

namespace Rollouts

variable {R : RandomSource} {b : Rollouts} {p : Problem}

/-! ## Slices of a search by rollouts -/

/-- **However a search by rollouts is sliced and stopped, it accounts for rollouts.** -/
theorem runUntil_eq (deadline : Duration) (n : Nat) (r : R.Memory) (q : Progress) (w : σ) :
    ∃ xs : List Rollout, (∀ x ∈ xs, Ended p b.maxDepth p.init x.finish x.path) ∧
      ((b.runUntil R p deadline n r q : StateM σ _).run w).1 = xs.foldl Progress.note q := by
  induction n generalizing r q w with
  | zero => exact ⟨[], fun _ h => absurd h List.not_mem_nil, rfl⟩
  | succ n ih =>
    unfold runUntil
    simp only [run_bind]
    split
    · exact ⟨[], fun _ h => absurd h List.not_mem_nil, rfl⟩
    · generalize min (b.maxSimulations - q.stats.simulations) sliceLength = k
      have hslice := run_eq (T := .never) (R := R) (p := p) b.maxDepth k () r q
      obtain ⟨xs, hxs, hrest⟩ := ih (run .never R p b.maxDepth k () r q).2 (run .never R p b.maxDepth k () r q).1
        (Host.look w).2
      refine ⟨trail .never R p b.maxDepth k () r q.stats.simulations ++ xs, fun x hx => ?_, hrest.trans ?_⟩
      · exact (List.mem_append.1 hx).elim (fun hx => trail_ended x hx) (hxs x)
      · rw [hslice, List.foldl_append]

theorem report_walk {xs : List Rollout} (hxs : ∀ x ∈ xs, Ended p b.maxDepth p.init x.finish x.path) {plan : Plan}
    (h : (b.report (xs.foldl Progress.note .start)).plan = some plan) :
    ∃ t, p.Walk p.init plan.steps t ∧ p.isGoal t = true := by
  obtain ⟨path, hbest, rfl⟩ := Option.map_eq_some_iff.1 h
  obtain ⟨i, hfirst, -⟩ := (tracks_start.foldl xs).success path hbest
  cases hxs _ hfirst.1.mem with
  | goal hw _ hg => exact ⟨_, hw.walk, hg⟩

end Rollouts

namespace Planner

variable {planner : Planner} {p : Problem} {R : RandomSource} {w : σ} {e : PlannerError}

/-! ## The searches of a planner -/

/-- **The time limit does not fire** in the search with A*. -/
def InTime (planner : Planner) (p : Problem) (w : σ) : Prop :=
  (planner.astar.setup p).InTime ⟨(Host.look w).1.nanos + planner.limit.nanos⟩ (planner.astar.setup p).turns
    (planner.astar.setup p).start (Host.after (planner.astar.opening p) (Host.look w).2)

theorem runAStar_error (h : planner.astar.check planner.termination p = .error e) :
    ((planner.runAStar p : StateM σ _).run w).1 = .error e := by
  unfold runAStar
  rw [h]
  rfl

/-- **In time, a planner's search with A* ends like one that nothing stops.** -/
theorem runAStar_ok (h : planner.astar.check planner.termination p = .ok ()) (hin : planner.InTime p w) :
    ((planner.runAStar p : StateM σ _).run w).1 =
      .ok (.ofProgress (planner.astar.ending .never p).1 (planner.astar.ending .never p).2) := by
  have heq := AStar.runUntil_eq hin
  unfold Host.look Host.after at heq
  unfold runAStar
  rw [h]
  simp only [run_bind]
  rw [heq]
  rfl

theorem runRolloutsWith_error (h : planner.rollouts.enter planner.termination p = .error e) :
    ((planner.runRolloutsWith R p : StateM σ _).run w).1 = .error e := by
  unfold runRolloutsWith
  rw [h]
  rfl

/-- **A planner's search by rollouts that begins gives a report**, and its plan is a walk to a goal. -/
theorem runRolloutsWith_ok (h : planner.rollouts.enter planner.termination p = .ok ()) :
    ∃ r, ((planner.runRolloutsWith R p : StateM σ _).run w).1 = .ok r ∧
      ∀ plan, r.plan = some plan → ∃ t, p.Walk p.init plan.steps t ∧ p.isGoal t = true := by
  obtain ⟨xs, hxs, heq⟩ := Rollouts.runUntil_eq (R := R) (b := planner.rollouts) (p := p)
    ⟨(Host.look w).1.nanos + planner.limit.nanos⟩ (planner.rollouts.maxSimulations + 1) R.start .start
    (Host.after (planner.rollouts.opening p) (Host.look w).2)
  refine ⟨planner.rollouts.report (xs.foldl Rollouts.Progress.note .start), ?_, fun _ hplan =>
    Rollouts.report_walk hxs hplan⟩
  unfold Host.look Host.after at heq
  unfold runRolloutsWith
  rw [h]
  simp only [run_bind]
  rw [heq]
  rfl

end Planner
end GroundPlanner
