import GroundPlanner.Config.Basic
import GroundPlanner.Document.Format
/-!
# Configuration documents

A configuration document has the settings in five groups.  Every field may be missing and then has its
default, except that a time limit written without names must give both of its parts.
-/
namespace GroundPlanner

open DocumentValue

variable {V : Type} [DocumentValue V]

namespace TimeLimits

def set (l : TimeLimits) (field : String) (v : V) : Read TimeLimits := do
  match field with
  | "seconds_spent_limit" => return { l with seconds := ← optional natural v }
  | _ => return { l with millis := ← optional natural v }

def read (v : V) : Read TimeLimits := do
  return (← record ["seconds_spent_limit", "millis_spent_limit"] 2 set {} v).1

end TimeLimits

namespace Config

def setSearch (c : Config) (_ : String) (v : V) : Read Config := do
  return { c with suppressDuplicates := ← flag v }

def setRollouts (c : Config) (field : String) (v : V) : Read Config := do
  match field with
  | "max_simulations" => return { c with maxSimulations := ← natural v }
  | _ => return { c with maxDepth := ← natural v }

def setReport (c : Config) (field : String) (v : V) : Read Config := do
  match field with
  | "csv_output" => return { c with csv := ← optional text v }
  | _ => return { c with markdown := ← optional text v }

def set (c : Config) (field : String) (v : V) : Read Config := do
  match field with
  | "heuristic" => return { c with heuristic := ← constant HeuristicName.all HeuristicName.fileLabel v }
  | "heuristic_weight" => return { c with weight := ← real v }
  | "random_seed" => return { c with seed := (← optional natural v).map Nat.toUInt64 }
  | "termination" => return { c with limits := ← TimeLimits.read v }
  | "astar" => return (← record ["deduplicate_open"] 0 setSearch c v).1
  | "monte_carlo" => return (← record ["max_simulations", "max_depth"] 0 setRollouts c v).1
  | _ => return (← record ["csv_output", "markdown_output"] 0 setReport c v).1

def read (v : V) : Read Config := do
  let names := ["heuristic", "heuristic_weight", "random_seed", "termination", "astar", "monte_carlo", "report"]
  return (← record names 0 set {} v).1

/-- The configuration that a text describes. -/
def ofDocument (f : Format) (text : String) : Except ConfigError Config :=
  (f.read Config.read text).mapError .document

end Config
end GroundPlanner
