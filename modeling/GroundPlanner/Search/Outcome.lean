import GroundPlanner.Duration
import GroundPlanner.Plan
/-!
# Outcomes and statistics of searches
-/
namespace GroundPlanner

/-- How a best-first search ended. -/
inductive SearchOutcome where
  | succeeded (plan : Plan)
  /-- No open node was left. -/
  | exhausted
  | timedOut
deriving DecidableEq, Repr

namespace SearchOutcome

def plan? : SearchOutcome → Option Plan
  | succeeded p => some p
  | _ => none

def isSuccess (o : SearchOutcome) : Bool :=
  o.plan?.isSome

def label : SearchOutcome → String
  | succeeded _ => "succeeded"
  | exhausted => "exhausted"
  | timedOut => "timed_out"

end SearchOutcome

/-- Counters of a best-first search. -/
structure AStarStats where
  /-- Nodes taken off the open list, stale ones and the goal included. -/
  popped : Nat := 0
  /-- Nodes expanded. -/
  explored : Nat := 0
  /-- Successors put on the open list. -/
  generated : Nat := 0
  /-- Successors dropped because their state was closed. -/
  closedPrunes : Nat := 0
  /-- Successors dropped because their state was offered before at no greater cost. -/
  openPrunes : Nat := 0
  /-- Nodes taken off the open list whose state was closed meanwhile. -/
  stalePops : Nat := 0
  /-- The largest size of the open list. -/
  openHighWater : Nat := 0
  /-- The cost of the goal node, if one was reached. -/
  goalCost : Option Nat := none
deriving DecidableEq, Repr

/-- A share as a double; nothing of nothing is zero. -/
def share (part whole : Nat) : Float :=
  if whole = 0 then 0.0 else Float.ofNat part / Float.ofNat whole

namespace AStarStats

/-- Successors per expansion. -/
def branchingFactor (s : AStarStats) : Float :=
  share s.generated s.explored

end AStarStats

/-- Why a rollout ended. -/
inductive RolloutEnd where
  | goal
  | deadEnd
  | depthLimit
  | timeLimit
deriving DecidableEq, Repr

def RolloutEnd.label : RolloutEnd → String
  | .goal => "Goal"
  | .deadEnd => "DeadEnd"
  | .depthLimit => "DepthLimit"
  | .timeLimit => "TimeLimit"

/-- Counters of a search by rollouts. -/
structure RolloutStats where
  simulations : Nat := 0
  successes : Nat := 0
  deadEnds : Nat := 0
  depthAborts : Nat := 0
  timeAborts : Nat := 0
  /-- Number of the rollout and length of its path, each time the best plan improved. -/
  improvements : List (Nat × Nat) := []
deriving DecidableEq, Repr

namespace RolloutStats

/-- Counts a rollout by its end. -/
def record (s : RolloutStats) (e : RolloutEnd) : RolloutStats :=
  let s := { s with simulations := s.simulations + 1 }
  match e with
  | .goal => { s with successes := s.successes + 1 }
  | .deadEnd => { s with deadEnds := s.deadEnds + 1 }
  | .depthLimit => { s with depthAborts := s.depthAborts + 1 }
  | .timeLimit => { s with timeAborts := s.timeAborts + 1 }

def improve (s : RolloutStats) (simulation length : Nat) : RolloutStats :=
  { s with improvements := s.improvements ++ [(simulation, length)] }

/-- The share of the rollouts that reached the goal. -/
def successRate (s : RolloutStats) : Float :=
  share s.successes s.simulations

end RolloutStats
end GroundPlanner
