import GroundPlanner.CommandLine.Arguments
import GroundPlanner.Decimal.Read
import GroundPlanner.Text.Digits
/-!
# Reading the command line

An option is written with two dashes and its name, or with one dash and its letter.  Its value follows as
the next word, after an equals sign, or right after the letter.  After a lone pair of dashes every word is
taken as it is.

A value that stands in a word of its own is looked at only when the next option or the end is reached, so
an unknown option after it is reported first.
-/
namespace GroundPlanner
namespace CommandLine

inductive Parameter where
  | problem
  | weight
  | heuristic
  | timeout
  | seed
  | config
  | csv
  | noCsv
  | markdown
  | maxSimulations
  | maxDepth
  | mode
  | help
  | version
deriving DecidableEq, Repr

namespace Parameter

def all : List Parameter :=
  [problem, weight, heuristic, timeout, seed, config, csv, noCsv, markdown, maxSimulations, maxDepth, mode, help,
    version]

/-- The name after two dashes.  The problem is given without a name. -/
def long : Parameter → Option String
  | problem => none
  | weight => some "weight"
  | heuristic => some "heuristic"
  | timeout => some "timeout"
  | seed => some "seed"
  | config => some "config"
  | csv => some "csv"
  | noCsv => some "no-csv"
  | markdown => some "markdown"
  | maxSimulations => some "max-simulations"
  | maxDepth => some "max-depth"
  | mode => some "algorithm"
  | help => some "help"
  | version => some "version"

/-- The letter after one dash. -/
def short : Parameter → Option Char
  | weight => some 'w'
  | heuristic => some 'e'
  | timeout => some 't'
  | help => some 'h'
  | version => some 'V'
  | _ => none

def takesValue : Parameter → Bool
  | noCsv | help | version => false
  | _ => true

def ofLong? (name : String) : Option Parameter :=
  all.find? (fun p => p.long == some name)

def ofShort? (letter : Char) : Option Parameter :=
  all.find? (fun p => p.short == some letter)

/-- The parameter as it is written. -/
def label (p : Parameter) : String :=
  match p.long with
  | some name => "--" ++ name
  | none => "<PROBLEM>"

end Parameter

/-- Why the command line does not lead to a run. -/
inductive UsageFault where
  | unknown (word : String)
  | noValue (p : Parameter)
  | emptyPath (p : Parameter)
  /-- The value is none of those that the parameter can have. -/
  | noChoice (p : Parameter) (value : String)
  /-- The value cannot be read as what the parameter stands for. -/
  | unreadable (p : Parameter) (value : String)
  /-- The parameter takes no value but was given one. -/
  | needlessValue (p : Parameter) (value : String)
  /-- The parameters exclude each other; one excludes itself if it must not be repeated. -/
  | conflict (p q : Parameter)
  | noProblem
  | helpAsked
  | versionAsked
deriving DecidableEq, Repr

namespace UsageFault

def message : UsageFault → String
  | unknown w => "unexpected argument '" ++ w ++ "'"
  | noValue p => "a value is required for '" ++ p.label ++ "'"
  | emptyPath p => "the path for '" ++ p.label ++ "' is empty"
  | noChoice p v => "'" ++ v ++ "' is not possible for '" ++ p.label ++ "'"
  | unreadable p v => "invalid value '" ++ v ++ "' for '" ++ p.label ++ "'"
  | needlessValue p v => "unexpected value '" ++ v ++ "' for '" ++ p.label ++ "'"
  | conflict p q =>
    if p = q then "'" ++ p.label ++ "' cannot be used multiple times"
    else "'" ++ p.label ++ "' cannot be used with '" ++ q.label ++ "'"
  | noProblem => "a problem file is required"
  | helpAsked => "usage: planforge [OPTIONS] <PROBLEM>"
  | versionAsked => "planforge"

/-- Who asks for help gets what was asked for; other faults end with two. -/
def exitCode : UsageFault → Nat
  | helpAsked | versionAsked => 0
  | _ => 2

end UsageFault

/-! ## Values -/

/-- A word of 64 bits, with or without a plus sign. -/
def word64? (s : String) : Option Nat := do
  let n ← Text.digits? 10 (match s.toList with
    | '+' :: ds => ds
    | ds => ds)
  if n < UInt64.size then some n else none

/-- Sets what a parameter stands for. -/
def assign (a : Arguments) (p : Parameter) (value : String) : Except UsageFault Arguments := do
  let read {α : Type} (result : Option α) : Except UsageFault (Option α) :=
    match result with
    | some x => .ok (some x)
    | none => .error (.unreadable p value)
  let path : Except UsageFault (Option String) :=
    if value.isEmpty then .error (.emptyPath p) else .ok (some value)
  match p with
  | .problem => return { a with problem := (← path).getD "" }
  | .weight => return { a with weight := ← read (Decimal.parse? value) }
  | .heuristic => return { a with heuristic := ← read (HeuristicName.parse? value) }
  | .timeout => return { a with timeout := ← read (Decimal.parse? value) }
  | .seed => return { a with seed := ← read (word64? value) }
  | .config => return { a with config := ← path }
  | .csv => return { a with csv := ← path }
  | .noCsv => return { a with noCsv := true }
  | .markdown => return { a with markdown := ← path }
  | .maxSimulations => return { a with maxSimulations := ← read (word64? value) }
  | .maxDepth => return { a with maxDepth := ← read (word64? value) }
  | .mode =>
    match Mode.all.find? (fun m => m.label == value) with
    | some m => return { a with mode := m }
    | none => throw (.noChoice p value)
  | .help => throw .helpAsked
  | .version => throw .versionAsked

/-! ## Words -/

/-- The words that were read so far. -/
structure Reading where
  arguments : Arguments := {}
  seen : List Parameter := []
  /-- A parameter whose value was not looked at yet, or is still to come. -/
  pending : Option (Parameter × Option String) := none
  /-- Every further word is taken as it is. -/
  verbatim : Bool := false

namespace Reading

def give (r : Reading) (p : Parameter) (value : String) : Except UsageFault Reading := do
  if p ∈ r.seen then throw (.conflict p p)
  return { r with arguments := ← assign r.arguments p value, seen := p :: r.seen, pending := none }

/-- Looks at the value that was put off. -/
def settle (r : Reading) : Except UsageFault Reading :=
  match r.pending with
  | none => .ok r
  | some (p, none) => .error (.noValue p)
  | some (p, some value) => r.give p value

/-- A parameter whose value is the next word. -/
def await (r : Reading) (p : Parameter) : Except UsageFault Reading := do
  return { ← r.settle with pending := some (p, none) }

def giveNow (r : Reading) (p : Parameter) (value : String) : Except UsageFault Reading := do
  (← r.settle).give p value

/-- An option by its name, perhaps with a value after an equals sign. -/
def long (r : Reading) (body : List Char) : Except UsageFault Reading :=
  let name := String.ofList (body.takeWhile (· != '='))
  match Parameter.ofLong? name, body.dropWhile (· != '=') with
  | none, _ => .error (.unknown (String.ofList ('-' :: '-' :: body)))
  | some p, [] => if p.takesValue then r.await p else r.giveNow p ""
  | some p, _ :: value =>
    if p.takesValue then r.giveNow p (String.ofList value) else .error (.needlessValue p (String.ofList value))

/-- Options by their letters.  What follows the letter of one with a value is its value. -/
def short (r : Reading) : List Char → Except UsageFault Reading
  | [] => .ok r
  | c :: cs =>
    match Parameter.ofShort? c with
    | none => .error (.unknown (String.ofList ['-', c]))
    | some p =>
      if !p.takesValue then do short (← r.giveNow p "") cs
      else match cs with
        | [] => r.await p
        | '=' :: value => r.giveNow p (String.ofList value)
        | value => r.giveNow p (String.ofList value)

/-- A word that is no option is the problem, of which there is one. -/
def positional (r : Reading) (word : String) : Except UsageFault Reading := do
  if .problem ∈ r.seen ∨ r.pending.any (·.1 = .problem) then throw (.unknown word)
  return { ← r.settle with pending := some (.problem, some word) }

def word (r : Reading) (w : String) : Except UsageFault Reading :=
  if r.verbatim then r.positional w
  else match w.toList with
    | ['-', '-'] => .ok { r with verbatim := true }
    | '-' :: '-' :: body => r.long body
    | '-' :: c :: cs => r.short (c :: cs)
    | _ =>
      match r.pending with
      | some (p, none) => .ok { r with pending := some (p, some w) }
      | _ => r.positional w

/-- The arguments when all words are read. -/
def finish (r : Reading) : Except UsageFault Arguments := do
  let r ← r.settle
  if .csv ∈ r.seen ∧ .noCsv ∈ r.seen then throw (.conflict .csv .noCsv)
  if .problem ∉ r.seen then throw .noProblem
  return r.arguments

end Reading

/-- The arguments that the words of a command line give. -/
def read (words : List String) : Except UsageFault Arguments := do
  (← words.foldlM Reading.word {}).finish

end CommandLine
end GroundPlanner
