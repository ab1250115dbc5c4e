import GroundPlanner.Search.AStar
import GroundPlanner.Search.Rollouts
/-!
# Configurations

Everything that can be set for a run.  `Config.validate` refuses the settings that a search would refuse,
so that a validated configuration is never refused later on.
-/
namespace GroundPlanner

/-- The two parts of a time limit; the limit is their sum. -/
structure TimeLimits where
  seconds : Option Nat := none
  millis : Option Nat := none
deriving DecidableEq, Repr

namespace TimeLimits

/-- The limit that is set, if any.  The parts may be too long to have a sum. -/
def total (l : TimeLimits) : Except SettingFault (Option Duration) :=
  match l.seconds, l.millis with
  | none, none => .ok none
  | s, m =>
    match (Duration.ofSeconds (s.getD 0)).add? (.ofMillis (m.getD 0)) with
    | some d => .ok (some d)
    | none => .error .limitOverflow

end TimeLimits

structure Config where
  heuristic : HeuristicName := .fastForward
  weight : Float := 1.0
  seed : Option UInt64 := none
  limits : TimeLimits := {}
  suppressDuplicates : Bool := false
  maxSimulations : Nat := 100000
  maxDepth : Nat := 100
  csv : Option String := some "comparison_results.csv"
  markdown : Option String := none

namespace Config

/-- The limit of a configuration that sets none. -/
def defaultLimit : Duration :=
  .ofSeconds 600

def timeLimit (c : Config) : Except SettingFault Duration :=
  c.limits.total.map (fun d => d.getD defaultLimit)

/-- Sets the limit to whole seconds. -/
def withSeconds (c : Config) (n : Nat) : Config :=
  { c with limits := ⟨some n, none⟩ }

/-- Sets the limit to milliseconds. -/
def withMillis (c : Config) (n : Nat) : Config :=
  { c with limits := ⟨none, some n⟩ }

/-- The time limit of a configuration whose other settings are good, too. -/
def checked (c : Config) : Except SettingFault Duration := do
  if !AStar.validWeight c.weight then throw (.weight c.weight)
  let limit ← c.timeLimit
  if limit.isZero then throw .timeout
  if c.maxSimulations = 0 then throw .simulations
  if c.maxDepth = 0 then throw .depth
  return limit

def validate (c : Config) : Except ConfigError Unit :=
  (c.checked.map (fun _ => ())).mapError .setting

end Config

/-- A validated configuration and the engines that it describes. -/
structure Planner where
  config : Config
  limit : Duration

namespace Planner

def ofConfig (c : Config) : Except PlannerError Planner :=
  (c.checked.map (Planner.mk c)).mapError (fun f => .configuration (.setting f))

def astar (p : Planner) : AStar where
  heuristic := p.config.heuristic
  weight := p.config.weight
  suppressDuplicates := p.config.suppressDuplicates

def rollouts (p : Planner) : Rollouts where
  maxSimulations := p.config.maxSimulations
  maxDepth := p.config.maxDepth

def termination (p : Planner) : Termination :=
  .afterTime p.limit

/-- The seed of the rollouts; without a configured one, any will do. -/
def seed (p : Planner) : UInt64 :=
  p.config.seed.getD 0

def solveAStar (p : Planner) (problem : Problem) : Except PlannerError AStar.Report :=
  p.astar.search p.termination problem

def solveRollouts (p : Planner) (problem : Problem) : Except PlannerError Rollouts.Report :=
  p.rollouts.search p.termination p.seed problem

end Planner
end GroundPlanner
