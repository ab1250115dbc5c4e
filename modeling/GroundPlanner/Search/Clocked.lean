import GroundPlanner.Config.Basic
import GroundPlanner.Host
/-!
# Searches against the clock

On a host with a clock a search is cut into slices, and the time is looked at before each slice.  A slice is
a part of the same run that the pure search makes in one piece, so a search that the clock does not end has
the same result either way.
-/
namespace GroundPlanner

variable {m : Type → Type} [Monad m] [Host m]

/-- Turns or rollouts between two looks at the clock. -/
def sliceLength : Nat := 64

namespace AStar

/-- Turns until the search ends or the deadline has passed, in at most `n` slices. -/
@[specialize]
def Setup.runUntil (s : Setup) (deadline : Duration) : Nat → Progress → m (SearchOutcome × Progress)
  | 0, p => pure (.timedOut, p)
  | n + 1, p => do
    if deadline.nanos ≤ (← Host.now).nanos then return (.timedOut, p)
    let slice := Termination.ofLimits [.checks sliceLength]
    match s.run slice s.turns slice.start p with
    | (.timedOut, p) => s.runUntil deadline n p
    | r => return r

end AStar

namespace Rollouts

/-- Rollouts until the budget or the time is used up, in at most `n` slices. -/
@[specialize]
def runUntil (b : Rollouts) (R : RandomSource) (problem : Problem) (deadline : Duration) :
    Nat → R.Memory → Progress → m Progress
  | 0, _, p => pure p
  | n + 1, r, p => do
    let left := b.maxSimulations - p.stats.simulations
    if left = 0 || deadline.nanos ≤ (← Host.now).nanos then return p
    let (p, r) := run .never R problem b.maxDepth (min left sliceLength) () r p
    b.runUntil R problem deadline n r p

end Rollouts

namespace Planner

/-- Searches with A* within the time limit, and logs it. -/
def runAStar (p : Planner) (problem : Problem) : m (Except PlannerError AStar.Report) := do
  match p.astar.check p.termination problem with
  | .error e => return .error e
  | .ok () =>
    let began ← Host.now
    Host.logAll (p.astar.opening problem)
    let s := p.astar.setup problem
    let (outcome, final) ← s.runUntil ⟨began.nanos + p.limit.nanos⟩ s.turns s.start
    let report := AStar.Report.ofProgress outcome final
    Host.logAll (report.records (began.distance (← Host.now)))
    return .ok report

/-- Searches by rollouts with the words of a source within the time limit, and logs it. -/
def runRolloutsWith (p : Planner) (source : RandomSource) (problem : Problem) :
    m (Except PlannerError Rollouts.Report) := do
  match p.rollouts.enter p.termination problem with
  | .error e => return .error e
  | .ok () =>
    let began ← Host.now
    Host.logAll (p.rollouts.opening problem)
    let final ← p.rollouts.runUntil source problem ⟨began.nanos + p.limit.nanos⟩
      (p.rollouts.maxSimulations + 1) source.start .start
    let report := p.rollouts.report final
    Host.logAll (report.records (began.distance (← Host.now)))
    return .ok report

/-- Searches by rollouts with the random words of the seed. -/
def runRollouts (p : Planner) (problem : Problem) : m (Except PlannerError Rollouts.Report) :=
  p.runRolloutsWith (.seeded p.seed) problem

end Planner
end GroundPlanner
