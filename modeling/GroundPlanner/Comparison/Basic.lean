import GroundPlanner.Duration
import GroundPlanner.Plan
/-!
# Comparisons of the two searches

A comparison holds what each engine did with one problem.  `winner` tells which did better; A* wins ties.
-/
namespace GroundPlanner

inductive Engine where
  | astar
  | rollouts
deriving DecidableEq, Repr

namespace Engine

def label : Engine → String
  | astar => "A*"
  | rollouts => "Monte Carlo"

/-- The label in machine-readable reports. -/
def csvLabel : Engine → String
  | astar => "A*"
  | rollouts => "Monte_Carlo"

end Engine

/-- What one engine did. -/
structure EngineRun where
  engine : Engine
  plan : Option Plan
  time : Duration
  /-- Nodes taken off the open list, or rollouts. -/
  work : Nat
  /-- Why the engine refused to run, if it did. -/
  refusal : Option String := none
deriving DecidableEq, Repr

namespace EngineRun

/-- A run that came to an end. -/
def completed (engine : Engine) (plan : Option Plan) (time : Duration) (work : Nat) : EngineRun :=
  { engine, plan, time, work }

/-- A run that the engine refused. -/
def rejected (engine : Engine) (time : Duration) (reason : String) : EngineRun :=
  { engine, plan := none, time, work := 0, refusal := some reason }

def success (r : EngineRun) : Bool :=
  r.plan.isSome

/-- The length of the plan, or zero without one. -/
def planLength (r : EngineRun) : Nat :=
  r.plan.elim 0 Plan.length

def status (r : EngineRun) : String :=
  if r.success then "SUCCESS" else "FAILED"

/-- Seconds with three places. -/
def seconds (r : EngineRun) : String :=
  Decimal.fixed 3 r.time.toFloat

end EngineRun

/-- Which engine did better. -/
inductive Winner where
  | both (shortest : Engine) (shortestLength : Nat) (fastest : Engine) (fastestTime : Duration)
      (lengthDifference : Nat) (timeDifference : Duration)
  /-- Only one engine has a plan. -/
  | only (engine : Engine)
  | neither
deriving DecidableEq, Repr

namespace Winner

/-- The analysis in words. -/
def lines : Winner → List String
  | both shortest length fastest time lengthDifference timeDifference =>
    ["Shortest plan: " ++ shortest.label ++ " (" ++ Text.ofNat length ++ " actions)",
      "Fastest search: " ++ fastest.label ++ " (" ++ Decimal.fixed 3 time.toFloat ++ "s)",
      "Plan length difference: " ++ Text.ofNat lengthDifference ++ " actions",
      "Time difference: " ++ Decimal.fixed 3 timeDifference.toFloat ++ " seconds"]
  | only engine => ["Overall winner: " ++ engine.label ++ " (only successful algorithm)"]
  | neither => ["Both algorithms failed to find a solution."]

end Winner

structure Comparison where
  name : String
  astar : EngineRun
  rollouts : EngineRun
deriving DecidableEq, Repr

namespace Comparison

def runs (c : Comparison) : List EngineRun :=
  [c.astar, c.rollouts]

/-- The plan of A* if it has one, or else that of the rollouts. -/
def primaryPlan (c : Comparison) : Option Plan :=
  c.astar.plan.or c.rollouts.plan

def winner (c : Comparison) : Winner :=
  match c.astar.plan, c.rollouts.plan with
  | some a, some r =>
    let byLength := if a.length ≤ r.length then (Engine.astar, a.length) else (Engine.rollouts, r.length)
    let byTime :=
      if c.astar.time.nanos ≤ c.rollouts.time.nanos then (Engine.astar, c.astar.time)
      else (Engine.rollouts, c.rollouts.time)
    .both byLength.1 byLength.2 byTime.1 byTime.2
      (max a.length r.length - min a.length r.length) (c.astar.time.distance c.rollouts.time)
  | some _, none => .only .astar
  | none, some _ => .only .rollouts
  | none, none => .neither

end Comparison
end GroundPlanner
