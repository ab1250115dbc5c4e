import GroundPlanner.Config.Basic
/-!
# Arguments of a run

What can be said on the command line, and how it changes a configuration: each argument replaces one setting
of the configuration file.
-/
namespace GroundPlanner
namespace CommandLine

/-- Which engine to run. -/
inductive Mode where
  /-- Both, and compare them. -/
  | compare
  | astar
  | rollouts
deriving DecidableEq, Repr

namespace Mode

def all : List Mode :=
  [compare, astar, rollouts]

def label : Mode → String
  | compare => "compare"
  | astar => "astar"
  | rollouts => "monte-carlo"

end Mode

structure Arguments where
  /-- The path of the problem file. -/
  problem : String := ""
  weight : Option Float := none
  heuristic : Option HeuristicName := none
  /-- The time limit in seconds. -/
  timeout : Option Float := none
  seed : Option Nat := none
  /-- The path of the configuration file. -/
  config : Option String := none
  csv : Option String := none
  noCsv : Bool := false
  markdown : Option String := none
  maxSimulations : Option Nat := none
  maxDepth : Option Nat := none
  mode : Mode := .compare

/-- Seconds as whole milliseconds, a half rounded up and at least one for any positive time.  What is no
time becomes zero, which no search accepts. -/
def toMillis (seconds : Float) : Nat :=
  if seconds.isFinite && 0.0 < seconds then max 1 (seconds * 1000.0).round.toUInt64.toNat else 0

namespace Arguments

/-- The configuration with the settings of the command line. -/
def adjust (a : Arguments) (c : Config) : Config :=
  let c := { c with
    weight := a.weight.getD c.weight
    heuristic := a.heuristic.getD c.heuristic
    seed := (a.seed.map Nat.toUInt64).or c.seed
    maxSimulations := a.maxSimulations.getD c.maxSimulations
    maxDepth := a.maxDepth.getD c.maxDepth
    csv := if a.noCsv then none else a.csv.or c.csv
    markdown := a.markdown.or c.markdown }
  match a.timeout with
  | some t => c.withMillis (toMillis t)
  | none => c

end Arguments
end CommandLine
end GroundPlanner
