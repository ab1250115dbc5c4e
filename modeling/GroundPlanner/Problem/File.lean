import GroundPlanner.Host
import GroundPlanner.Problem.Document
/-!
# Problem files
-/
namespace GroundPlanner

variable {m : Type → Type} [Monad m] [Host m]

namespace Draft

/-- The place of origin of the record on a file that was read. -/
def target : String := "planforge_strips::file"

/-- Reads a draft in the format that the extension of its file tells. -/
def load (path : String) : m (Except ModelFault Draft) := do
  match ← Host.readText path with
  | .error f => return .error (.unreadable path f)
  | .ok text =>
    let result := Draft.ofDocument (.ofPath path) text
    if let .ok d := result then
      Host.log (.event .debug target "problem_file_loaded"
        [("path", .shown path), ("actions", .count d.actions.length)])
    return result

end Draft

/-- Reads a problem. -/
def Problem.load (path : String) : m (Except ModelFault Problem) := do
  return (← Draft.load path).bind Draft.build

end GroundPlanner
