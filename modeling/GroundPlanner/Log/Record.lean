/-!
# Log records

A record has a level, a target that names its place of origin, and named fields.  The way in which a field
carries its value matters to whoever shows it: a text, a value shown by its own text, a value shown in
quotes, a count, a number or a flag.
-/
namespace GroundPlanner
namespace Log

inductive Level where
  | error
  | warn
  | info
  | debug
  | trace
deriving DecidableEq, Repr

namespace Level

def label : Level → String
  | error => "ERROR"
  | warn => "WARN"
  | info => "INFO"
  | debug => "DEBUG"
  | trace => "TRACE"

/-- How much a level lets through: the levels up to this place. -/
def verbosity : Level → Nat
  | error => 1
  | warn => 2
  | info => 3
  | debug => 4
  | trace => 5

/-- The level of a name, in either case. -/
def ofName? (s : String) : Option Level :=
  [error, warn, info, debug, trace].find? (fun l => l.label.toList.map Char.toLower == s.toList.map Char.toLower)

end Level

inductive Value where
  | text (s : String)
  /-- A value that shows itself as `s`. -/
  | shown (s : String)
  /-- A text that is shown between quotes. -/
  | quoted (s : String)
  | count (n : Nat)
  | signed (n : Int)
  | real (x : Float)
  | flag (b : Bool)

structure Record where
  level : Level
  target : String
  fields : List (String × Value)

namespace Record

/-- A record of a named event. -/
def event (level : Level) (target name : String) (fields : List (String × Value)) : Record :=
  ⟨level, target, ("event", .text name) :: fields⟩

def field? (r : Record) (name : String) : Option Value :=
  (r.fields.find? (fun f => f.1 == name)).map Prod.snd

/-- A count that may be missing. -/
def countField (name : String) (n : Option Nat) : List (String × Value) :=
  match n with
  | some n => [(name, .count n)]
  | none => []

end Record
end Log
end GroundPlanner
