import GroundPlanner.Log.Record
import GroundPlanner.Random.ChaCha
import GroundPlanner.Search.Outcome
import GroundPlanner.Search.Termination
/-!
# Search by random rollouts

A rollout walks from the initial state, choosing evenly among the applicable actions, until the goal holds,
no action applies, or the bound on its depth is reached.  The goal is tested before each step, so a walk
that reaches it with the last allowed step does not count.  The shortest successful walk is the plan; among
equally short ones it is the first.

The termination is asked before each rollout and before each step of it.

Room for the longest path is made before the first rollout, and without it there is no search.
-/
namespace GroundPlanner

/-- The budget of a search by rollouts. -/
structure Rollouts where
  maxSimulations : Nat
  maxDepth : Nat
deriving DecidableEq, Repr

namespace Rollouts

inductive Event where
  | rollout (simulation : Nat) (finish : RolloutEnd) (depth : Nat)
  | improved (simulation length : Nat)
  | progress (simulations successes : Nat) (best : Option Nat)
deriving DecidableEq, Repr

/-- One walk and what the termination and the source remember after it. -/
structure Walk (T : Termination) (R : RandomSource) where
  finish : RolloutEnd
  path : List Nat
  memory : T.Memory
  random : R.Memory

/-- A walk of at most `depth` steps from `s`, after the steps `done` (latest first) and `steps` rollouts. -/
def walk (T : Termination) (R : RandomSource) (p : Problem) (steps : Nat) :
    Nat → T.Memory → R.Memory → State → List Nat → Walk T R
  | 0, m, r, _, done => ⟨.depthLimit, done.reverse, m, r⟩
  | depth + 1, m, r, s, done =>
    match T.check m steps with
    | (true, m) => ⟨.timeLimit, done.reverse, m, r⟩
    | (false, m) =>
      if p.isGoal s then ⟨.goal, done.reverse, m, r⟩
      else match p.options s with
        | [] => ⟨.deadEnd, done.reverse, m, r⟩
        | o :: os =>
          let (k, r) := R.below (o :: os).length (Nat.succ_pos _) r
          let (i, a) := (o :: os)[k]
          walk T R p steps depth m r (a.successor s) (i :: done)

/-- The state of a search between two rollouts. -/
structure Progress where
  stats : RolloutStats
  best : Option (List Nat)
  /-- Latest first. -/
  events : List Event

/-- A successful path that is shorter than the best so far. -/
def improves (path : List Nat) : Option (List Nat) → Bool
  | none => true
  | some best => path.length < best.length

/-- Progress is logged at every so many rollouts. -/
def progressInterval : Nat := 10000

/-- Accounts for a finished rollout. -/
def Progress.record (p : Progress) (finish : RolloutEnd) (path : List Nat) : Progress :=
  let stats := p.stats.record finish
  let n := stats.simulations
  let events := .rollout n finish path.length :: p.events
  let p : Progress :=
    if finish = .goal ∧ improves path p.best then
      ⟨stats.improve n path.length, some path, .improved n path.length :: events⟩
    else ⟨stats, p.best, events⟩
  if n % progressInterval = 0 then
    { p with events := .progress n p.stats.successes (p.best.map List.length) :: p.events }
  else p

/-- Rollouts until the termination stops them, at most `n`. -/
def run (T : Termination) (R : RandomSource) (problem : Problem) (maxDepth : Nat) :
    Nat → T.Memory → R.Memory → Progress → Progress × R.Memory
  | 0, _, r, p => (p, r)
  | n + 1, m, r, p =>
    match T.check m p.stats.simulations with
    | (true, _) => (p, r)
    | (false, m) =>
      let w := walk T R problem p.stats.simulations maxDepth m r problem.init []
      run T R problem maxDepth n w.memory w.random (p.record w.finish w.path)

/-- The result of a search. -/
structure Report where
  plan : Option Plan
  /-- The termination, not the budget, ended the search. -/
  timedOut : Bool
  stats : RolloutStats
  /-- In order. -/
  events : List Event
deriving DecidableEq, Repr

/-- What a search is refused for. -/
def check (b : Rollouts) (T : Termination) (p : Problem) : Except PlannerError Unit := do
  Problem.checkSupported p.requirements
  if b.maxSimulations = 0 then throw (.configuration (.setting .simulations))
  if b.maxDepth = 0 then throw (.configuration (.setting .depth))
  if T.timeLimit = some .zero then throw (.configuration (.setting .timeout))

/-- The least depth for whose paths there is no room: the numbers of so many actions, of eight octets each,
fill the half of what can be addressed.  Room that can be asked for is taken to be there. -/
def roomlessDepth : Nat := 1 <<< 60

/-- What a search goes through before its first rollout.  One that is not refused asks for room for its longest
path. -/
def enter (b : Rollouts) (T : Termination) (p : Problem) : Except PlannerError Unit := do
  b.check T p
  if roomlessDepth ≤ b.maxDepth then throw .noRoom

/-- The search before its first rollout. -/
def Progress.start : Progress :=
  ⟨{}, none, []⟩

/-- The report on a search that ended with this progress. -/
def report (b : Rollouts) (final : Progress) : Report where
  plan := final.best.map Plan.mk
  timedOut := 0 < final.stats.timeAborts || final.stats.simulations < b.maxSimulations
  stats := final.stats
  events := final.events.reverse

/-- Searches with the words of a source, and gives what the source remembers afterwards. -/
def searchWith (b : Rollouts) (T : Termination) (R : RandomSource) (p : Problem) :
    Except PlannerError (Report × R.Memory) := do
  b.enter T p
  let (final, r) := run T R p b.maxDepth b.maxSimulations T.start R.start .start
  return (b.report final, r)

/-- Searches with the random words of a seed. -/
def search (b : Rollouts) (T : Termination) (seed : UInt64) (p : Problem) : Except PlannerError Report :=
  (b.searchWith T (.seeded seed) p).map Prod.fst

/-! ## Log records -/

/-- The place of origin of the records. -/
def target : String := "planforge_solver::search::montecarlo"

def Event.record : Event → Log.Record
  | .rollout n finish depth =>
    .event .trace target "rollout"
      [("simulation", .count n), ("end", .shown finish.label), ("depth", .count depth)]
  | .improved n length =>
    .event .info target "rollout_improved" [("simulation", .count n), ("plan_length", .count length)]
  | .progress n successes best =>
    .event .debug target "progress"
      ([("algorithm", .text "Monte Carlo"), ("simulations", .count n), ("successes", .count successes)] ++
        Log.Record.countField "best" best)

/-- What is logged before the first rollout. -/
def opening (b : Rollouts) (p : Problem) : List Log.Record :=
  [.event .info target "search_start"
    [("algorithm", .text "Monte Carlo"), ("max_simulations", .count b.maxSimulations),
      ("max_depth", .count b.maxDepth), ("actions", .count p.actions.length)]]

/-- What is logged of the rollouts and after the last one. -/
def Report.records (r : Report) (time : Duration) : List Log.Record :=
  r.events.map Event.record ++
  [.event .info target "search_end"
    ([("algorithm", .text "Monte Carlo"),
        ("outcome", .text (if r.plan.isSome then "succeeded" else "no_plan"))] ++
      Log.Record.countField "plan_length" (r.plan.map Plan.length) ++
      [("simulations", .count r.stats.simulations), ("timed_out", .flag r.timedOut),
        ("duration_ms", .count time.millis)])]

/-- What a search that was not refused logs, in order, if it takes no time. -/
def log (b : Rollouts) (p : Problem) (r : Report) : List Log.Record :=
  b.opening p ++ r.records .zero

end Rollouts
end GroundPlanner
