import GroundPlanner.Comparison.Report
import GroundPlanner.Search.Clocked
/-!
# Running a comparison

Both engines run on the same problem, A* first.  One that refuses the problem counts as failed and does not
stop the other; one that has no room for its search ends the comparison.  A report that cannot be written is
logged and does no harm.
-/
namespace GroundPlanner

/-- The name of a comparison and where its reports go. -/
structure ComparisonSettings where
  name : String
  csv : Option String := none
  markdown : Option String := none
deriving DecidableEq, Repr

namespace ComparisonSettings

/-- The settings with the report files of a configuration. -/
def ofConfig (name : String) (c : Config) : ComparisonSettings :=
  ⟨name, c.csv, c.markdown⟩

end ComparisonSettings

namespace Comparison

variable {m : Type → Type} [Monad m] [Host m]

/-- The place of origin of the records. -/
def target : String := "planforge_benchmark::runner"

/-- What is logged before the first search. -/
def opening (settings : ComparisonSettings) (problem : Problem) : List Log.Record :=
  [.event .info target "comparison_start"
    [("name", .shown settings.name), ("actions", .count problem.actions.length)]]

/-- What one engine did, from its report and the time that it took. -/
def engineRun {α : Type} (engine : Engine) (plan : α → Option Plan) (work : α → Nat)
    (search : m (Except PlannerError α)) : m (Except PlannerError EngineRun) := do
  let began ← Host.now
  let result ← search
  match result with
  | .ok report => return .ok (.completed engine (plan report) (began.distance (← Host.now)) (work report))
  | .error e =>
    if e.isFatal then return .error e
    Host.log (.event .error target "engine_rejected" [("algorithm", .shown engine.label), ("error", .shown e.message)])
    return .ok (.rejected engine (began.distance (← Host.now)) e.message)

/-- The row of A*. -/
def astarRow (planner : Planner) (problem : Problem) : m (Except PlannerError EngineRun) :=
  engineRun .astar AStar.Report.plan? (fun r => r.stats.popped) (planner.runAStar problem)

/-- The row of the rollouts with the words of a source. -/
def rolloutsRow (planner : Planner) (source : RandomSource) (problem : Problem) :
    m (Except PlannerError EngineRun) :=
  engineRun .rollouts Rollouts.Report.plan (fun r => r.stats.simulations) (planner.runRolloutsWith source problem)

/-- Writes a report and logs how that went. -/
def writeReport (format : String) (path : Option String) (text : String) : m Unit := do
  match path with
  | none => return ()
  | some path =>
    match ← Host.writeText path text with
    | .ok () =>
      Host.log (.event .info target "report_written" [("format", .text format), ("path", .shown path)])
    | .error f =>
      Host.log (.event .error target "report_failed"
        [("format", .text format), ("error", .shown (PlannerError.sink path f).message)])

/-- The summary of a comparison, line by line. -/
def summary (c : Comparison) : List Log.Record :=
  (c.tableLines ++ c.winner.lines).map (fun line =>
    .event .info target "comparison_summary" [("message", .shown line)])

/-- Compares the two engines on a problem; the rollouts draw the words of a source. -/
def runWith (settings : ComparisonSettings) (planner : Planner) (source : RandomSource) (problem : Problem) :
    m (Except PlannerError Comparison) := ExceptT.run do
  ExceptT.lift (Host.logAll (opening settings problem))
  let astar ← ExceptT.mk (astarRow planner problem)
  let rollouts ← ExceptT.mk (rolloutsRow planner source problem)
  let c : Comparison := ⟨settings.name, astar, rollouts⟩
  ExceptT.lift (Host.logAll c.summary)
  ExceptT.lift (writeReport "csv" settings.csv c.csv)
  ExceptT.lift (writeReport "markdown" settings.markdown c.markdown)
  return c

/-- Compares the two engines on a problem. -/
def run (settings : ComparisonSettings) (planner : Planner) (problem : Problem) :
    m (Except PlannerError Comparison) :=
  runWith settings planner (.seeded planner.seed) problem

end Comparison
end GroundPlanner
