import GroundPlanner.Comparison.Basic
/-!
# Reports on comparisons

A comparison is written as comma-separated values, as the lines of a table, and as a Markdown document.
-/
namespace GroundPlanner

def unlines (lines : List String) : String :=
  String.join (lines.map (· ++ "\n"))

namespace EngineRun

def csvRow (r : EngineRun) : String :=
  Text.join "," [r.engine.csvLabel, Text.ofNat r.planLength, r.seconds, Text.ofNat r.work,
    if r.success then "1" else "0"]

/-- The length of the plan in words. -/
def planCell (r : EngineRun) : String :=
  match r.plan with
  | some p => Text.ofNat p.length ++ " actions"
  | none => "N/A"

def cells (r : EngineRun) : List String :=
  [r.engine.label, r.status, r.planCell, r.seconds, Text.ofNat r.work]

/-- The cells of a row, each but the last as wide as its column. -/
def tableRow (r : EngineRun) : String :=
  Text.join " | " ((r.cells.zip [17, 7, 11, 8, 0]).map (fun (cell, width) => Text.padRight width cell))

def markdownRow (r : EngineRun) : String :=
  "| " ++ Text.join " | " r.cells ++ " |"

end EngineRun

namespace Comparison

/-- Comma-separated values: a header and a row for each engine. -/
def csv (c : Comparison) : String :=
  unlines ("Algorithm,Plan_Length,Time_Seconds,Nodes_Simulations,Success" :: c.runs.map EngineRun.csvRow)

def tableLines (c : Comparison) : List String :=
  ["Algorithm         | Status  | Plan Length | Time (s) | Nodes/Simulations",
    "------------------|---------|-------------|----------|------------------"] ++
  c.runs.map EngineRun.tableRow

def table (c : Comparison) : String :=
  unlines c.tableLines

/-- The reasons of the engines that refused to run. -/
def refusalLines (c : Comparison) : List String :=
  c.runs.filterMap (fun r => r.refusal.map (fun e => "- **" ++ r.engine.label ++ "**: " ++ e))

def markdown (c : Comparison) : String :=
  unlines (
    ["# Comparison: " ++ c.name, "", "## Results", "",
      "| Algorithm | Status | Plan Length | Time (s) | Nodes/Simulations |",
      "|-----------|--------|-------------|----------|-------------------|"] ++
    c.runs.map EngineRun.markdownRow ++
    ["", "## Winner Analysis", ""] ++
    c.winner.lines.map ("- " ++ ·) ++
    (match c.refusalLines with
      | [] => []
      | lines => ["", "## Errors", ""] ++ lines))

end Comparison
end GroundPlanner
