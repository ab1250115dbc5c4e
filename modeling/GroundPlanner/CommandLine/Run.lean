import GroundPlanner.CommandLine.Reader
import GroundPlanner.Comparison.Run
import GroundPlanner.Config.File
import GroundPlanner.Console.Filter
import GroundPlanner.Console.Line
import GroundPlanner.Problem.File
/-!
# A run from the command line

The configuration is read and checked before the problem is, and the problem before any engine runs.  The
plan is printed at the end.
-/
namespace GroundPlanner
namespace CommandLine

variable {m : Type → Type} [Monad m] [Host m]

namespace Arguments

/-- The configuration of the run: the file, if one is given, with the settings of the command line. -/
def plannerConfig (a : Arguments) : m (Except PlannerError Config) := do
  let base ← match a.config with
    | some path => Config.load path
    | none => pure (.ok {})
  return (base.mapError .configuration).map a.adjust

/-- The name under which a problem is compared: its own, or that of its file. -/
def problemName (a : Arguments) (p : Problem) : String :=
  if p.name.isEmpty then (Path.stem? a.problem).getD "problem" else p.name

/-- The plan in words. -/
def planText (problem : Problem) : Option Plan → String
  | some p => "Plan (" ++ Text.ofNat p.length ++ " actions):\n" ++ p.display problem
  | none => "No plan found.\n"

/-- The plan that the chosen engine finds.  Of a comparison it is that of A*, if there is one. -/
def solve (a : Arguments) (planner : Planner) (problem : Problem) : m (Except PlannerError (Option Plan)) := do
  match a.mode with
  | .astar => return (← planner.runAStar problem).map AStar.Report.plan?
  | .rollouts => return (← planner.runRollouts problem).map Rollouts.Report.plan
  | .compare =>
    let settings := ComparisonSettings.ofConfig (a.problemName problem) planner.config
    return (← Comparison.run settings planner problem).map Comparison.primaryPlan

/-- Reads what is to be done, does it, and prints the plan. -/
def run (a : Arguments) : m (Except PlannerError (Option Plan)) := ExceptT.run do
  let config ← ExceptT.mk a.plannerConfig
  let planner ← ExceptT.mk (pure (Planner.ofConfig config))
  let problem ← ExceptT.mk (m := m) (do return (← Problem.load a.problem).mapError .model)
  ExceptT.mk (pure (Problem.checkSupported problem.requirements))
  let plan ← ExceptT.mk (a.solve planner problem)
  ExceptT.lift (Host.print (planText problem plan))
  return plan

end Arguments

/-- The exit code of a run: zero with a plan, one without, two after an error, 101 where there is no room. -/
def exitCode : Except PlannerError (Option Plan) → Nat
  | .ok (some _) => 0
  | .ok none => 1
  | .error .noRoom => 101
  | .error _ => 2

/-- Greets and runs. -/
def session (a : Arguments) : m (Except PlannerError (Option Plan)) := do
  Host.print Console.greeting
  a.run

/-- What a terminal shows of a simulated run. -/
def transcript (filter : Console.Filter) (trace : List Trace) : String :=
  String.join (trace.reverse.map (fun t => match t with
    | .printed s => s
    | .logged r =>
      if filter.shows r then ((Console.render .zero r).map (· ++ "\n")).getD "" else ""))

end CommandLine
end GroundPlanner
