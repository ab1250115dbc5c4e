import GroundPlanner.Decimal.Shortest
import GroundPlanner.Heuristic.Name
import GroundPlanner.Requirement
/-!
# Causes of failure

Each way to fail is a constructor that carries what its message needs; the wording is in the `message`
functions and nowhere else.
-/
namespace GroundPlanner

/-- Why the operating system does not hand over, or take, the contents of a file. -/
inductive FileFault where
  | notFound
  | notDirectory
  | isDirectory
  | nameTooLong
  | nulInName
  | notText
  | other (description : String)
deriving DecidableEq, Repr

namespace FileFault

def message : FileFault → String
  | notFound => "No such file or directory (os error 2)"
  | notDirectory => "Not a directory (os error 20)"
  | isDirectory => "Is a directory (os error 21)"
  | nameTooLong => "File name too long (os error 36)"
  | nulInName => "file name contained an unexpected NUL byte"
  | notText => "stream did not contain valid UTF-8"
  | other s => s

end FileFault

/-- The formats in which problems and configurations are written. -/
inductive Format where
  | toml
  | yaml
deriving DecidableEq, Repr

def Format.label : Format → String
  | .toml => "TOML"
  | .yaml => "YAML"

/-- Why a text is not a document of the expected shape. -/
inductive DocumentFault where
  /-- The text breaks the rules of its format, or a value has the wrong type. -/
  | malformed
  | missingField (field : String)
  | unknownName (given : String) (expected : List String)
deriving DecidableEq, Repr

namespace DocumentFault

def quoted (s : String) : String :=
  "`" ++ s ++ "`"

/-- What is wrong in detail, where more can be said than that the document is malformed. -/
def detail : DocumentFault → Option String
  | malformed => none
  | missingField f => some ("missing field " ++ quoted f)
  | unknownName g es =>
    some ("unknown variant " ++ quoted g ++ ", expected one of " ++ Text.join ", " (es.map quoted))

end DocumentFault

structure ParseFault where
  format : Format
  fault : DocumentFault
deriving DecidableEq, Repr

def ParseFault.message (p : ParseFault) : String :=
  p.format.label ++ " parse error" ++ (match p.fault.detail with
    | none => ""
    | some d => ": " ++ d)

/-- A setting that no search can run with. -/
inductive SettingFault where
  /-- The heuristic weight is not a positive finite number. -/
  | weight (given : Float)
  | timeout
  | simulations
  | depth
  | unknownHeuristic (given : String)
  /-- The two parts of the time limit have no sum among durations. -/
  | limitOverflow

namespace SettingFault

def message : SettingFault → String
  | weight w => "heuristic weight must be > 0, got " ++ Decimal.shortest w
  | timeout => "timeout must be > 0"
  | simulations => "monte_carlo.max_simulations must be > 0"
  | depth => "monte_carlo.max_depth must be > 0"
  | unknownHeuristic s =>
    "unknown heuristic `" ++ s ++ "` (expected one of: " ++
      Text.join ", " (HeuristicName.all.map HeuristicName.label) ++ ")"
  | limitOverflow => "overflow when adding durations"

end SettingFault

/-- Why a configuration cannot be used. -/
inductive ConfigError where
  | file (fault : FileFault)
  | document (fault : ParseFault)
  | setting (fault : SettingFault)

namespace ConfigError

def message : ConfigError → String
  | file f => "IO error: " ++ f.message
  | document f => f.message
  | setting f => "Invalid configuration: " ++ f.message

/-- The cause without the heading that a planner error puts in front of it. -/
def reason : ConfigError → String
  | setting f => f.message
  | e => e.message

end ConfigError

/-- Where a problem mentions a fact. -/
inductive FactContext where
  | init
  | goal
  | action (name : String)
deriving DecidableEq, Repr

def FactContext.label : FactContext → String
  | .init => "init"
  | .goal => "goal"
  | .action n => "action `" ++ n ++ "`"

/-- Why a description is not a problem. -/
inductive ModelFault where
  | unknownFact (name : String) (context : FactContext)
  /-- The action at `index` has the name of the one at `previous`. -/
  | duplicateAction (name : String) (previous index : Nat)
  | unknownRequirement (given : String)
  | unreadable (path : String) (fault : FileFault)
  | document (fault : ParseFault)
deriving DecidableEq, Repr

namespace ModelFault

def message : ModelFault → String
  | unknownFact n c => "unknown fact `" ++ n ++ "` in " ++ c.label
  | duplicateAction n i j =>
    "duplicate action `" ++ n ++ "` (indices " ++ Text.ofNat i ++ " and " ++ Text.ofNat j ++ ")"
  | unknownRequirement s => "unknown requirement `" ++ s ++ "`"
  | unreadable p f => "cannot read " ++ p ++ ": " ++ f.message
  | document f => f.message

end ModelFault

/-- Why a sequence of action indices is not a plan. -/
inductive PlanFault where
  /-- The index at `step` is not below the number of actions. -/
  | outOfRange (step index actions : Nat)
  | notApplicable (step : Nat) (action : String)
  | goalMissed
  /-- Some index names no action. -/
  | unresolved
deriving DecidableEq, Repr

namespace PlanFault

def message : PlanFault → String
  | outOfRange s i n =>
    "step " ++ Text.ofNat s ++ ": action index " ++ Text.ofNat i ++ " out of range (" ++ Text.ofNat n ++
      " actions)"
  | notApplicable s a => "step " ++ Text.ofNat s ++ ": action `" ++ a ++ "` is not applicable"
  | goalMissed => "final state does not satisfy the goal"
  | unresolved => "action index out of range"

end PlanFault

/-- Everything that can stop the planner before it has an answer. -/
inductive PlannerError where
  | unsupported (requirements : List Requirement)
  | configuration (cause : ConfigError)
  | model (fault : ModelFault)
  | plan (fault : PlanFault)
  | sink (path : String) (fault : FileFault)
  /-- There is no room for the paths of a search. -/
  | noRoom

namespace PlannerError

def message : PlannerError → String
  | unsupported rs => "Problem not supported: requires " ++ Text.join ", " (rs.map Requirement.label)
  | configuration c => "Invalid configuration: " ++ c.reason
  | model f => "Problem model error: " ++ f.message
  | plan f => "Invalid plan: " ++ f.message
  | sink p f => "Failed to write report to " ++ p ++ ": " ++ f.message
  | noRoom => "capacity overflow"

/-- Nothing that calls a search goes on after such a failure. -/
def isFatal : PlannerError → Bool
  | noRoom => true
  | _ => false

end PlannerError
end GroundPlanner
