import GroundPlanner.Duration
import GroundPlanner.Files.Tree
import GroundPlanner.Log.Record
/-!
# The surroundings of a run

A run reads and writes files, looks at a clock, prints, and logs.  `Host` names these five; everything else
is done by pure functions.  On `Simulation`, a host made of values, the same run is a pure function of a
tree of files: no time passes there, and what is printed and logged is kept.
-/
namespace GroundPlanner

class Host (m : Type → Type) where
  readText : String → m (Except FileFault String)
  writeText : String → String → m (Except FileFault Unit)
  /-- The time since some moment before the run. -/
  now : m Duration
  print : String → m Unit
  log : Log.Record → m Unit

/-- What a simulated run does in the sight of others. -/
inductive Trace where
  | printed (text : String)
  | logged (record : Log.Record)

/-- The files of a simulated host, and what was printed and logged, latest first. -/
structure Simulated where
  files : FileTree
  trace : List Trace := []

/-- Everything that was printed. -/
def Simulated.printed (s : Simulated) : String :=
  String.join (s.trace.reverse.map (fun t => match t with
    | .printed text => text
    | .logged _ => ""))

abbrev Simulation := StateM Simulated

instance : Host Simulation where
  readText path := do return (← get).files.read path
  writeText path text := do
    let s ← get
    match s.files.write path text with
    | .error f => return .error f
    | .ok files =>
      set { s with files := files }
      return .ok ()
  now := pure .zero
  print text := modify (fun s => { s with trace := .printed text :: s.trace })
  log record := modify (fun s => { s with trace := .logged record :: s.trace })

namespace Host

variable {m : Type → Type} [Monad m] [Host m]

def logAll : List Log.Record → m Unit
  | [] => pure ()
  | r :: rs => do
    log r
    logAll rs

end Host
end GroundPlanner
