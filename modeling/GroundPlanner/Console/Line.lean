import GroundPlanner.Console.Paint
import GroundPlanner.Decimal.Shortest
import GroundPlanner.Duration
import GroundPlanner.Log.Record
import GroundPlanner.Text.Quoted
import GroundPlanner.Text.UpperCase
/-!
# Log records as lines on the console

`render` writes the records that a user wants to see, each as one coloured line: beginning and end of a
search, progress, improvements, the summary of a comparison, reports and errors.  Other records have no line.
-/
namespace GroundPlanner
namespace Console

open Log (Record)
open Color

/-! ## Fields -/

/-- The fields whose texts are taken as they are. -/
def plainFields : List String :=
  ["event", "algorithm", "outcome", "format"]

/-- The text of a field.  A value that shows itself stands without the quotes around it. -/
def word? (r : Record) (name : String) : Option String :=
  match r.field? name with
  | some (.shown s) => some (Text.trimQuotes s)
  | some (.quoted s) => some (Text.trimQuotes (Text.quote s))
  | some (.text s) => if name ∈ plainFields then some s else none
  | _ => none

/-- The count in a field, a word of 64 bits. -/
def count? (r : Record) (name : String) : Option Nat :=
  match r.field? name with
  | some (.count n) => some n
  | some (.signed n) => some (n % UInt64.size).toNat
  | _ => none

def real? (r : Record) (name : String) : Option Float :=
  match r.field? name with
  | some (.real x) => some x
  | _ => none

def flag? (r : Record) (name : String) : Option Bool :=
  match r.field? name with
  | some (.flag b) => some b
  | _ => none

def wordD (r : Record) (name default : String) : String :=
  (word? r name).getD default

/-- A count that is zero when it is missing. -/
def count (r : Record) (name : String) : Nat :=
  (count? r name).getD 0

/-! ## Parts of lines -/

/-- The time since the last search began, in seconds with three places. -/
def stamp (elapsed : Duration) : String :=
  let seconds := Float.ofNat elapsed.nanos / 1000000000.0
  brightBlack.paint (Text.padLeft 7 (Decimal.fixed 3 seconds) ++ "s")

/-- Milliseconds in the unit that suits them. -/
def milliseconds (ms : Nat) : String :=
  if ms < 1000 then Text.ofNat ms ++ "ms"
  else if ms < 60000 then Decimal.fixed 2 (Float.ofNat ms / 1000.0) ++ "s"
  else Text.ofNat (ms / 60000) ++ "m " ++ Text.ofNat (ms % 60000 / 1000) ++ "s"

/-- A part of a line that is left out when its value is missing. -/
def part {α : Type} (value : Option α) (text : α → String) : String :=
  match value with
  | some a => " │ " ++ text a
  | none => ""

/-! ## Lines -/

def searchStart (elapsed : Duration) (r : Record) : String :=
  stamp elapsed ++ " " ++ bold (brightGreen.paint "▶") ++ " " ++
    bold (white.paint (wordD r "algorithm" "search")) ++
    " │ " ++ brightYellow.paint (grouped (count r "actions")) ++ " actions" ++
    part (word? r "heuristic") (fun h => brightMagenta.paint h) ++
    part (real? r "weight") (fun w => "weight " ++ brightYellow.paint (Decimal.shortest w)) ++
    part (count? r "max_simulations") (fun n => brightYellow.paint (grouped n) ++ " rollouts") ++
    part (count? r "max_depth") (fun n => "depth " ++ brightYellow.paint (grouped n))

/-- How a search ended: with a plan, by the clock, or otherwise. -/
def verdict (r : Record) : String :=
  match count? r "plan_length", flag? r "timed_out" with
  | some n, _ => bold (brightGreen.paint (grouped n ++ " actions"))
  | none, some true => bold (brightRed.paint "TIMED OUT")
  | none, _ => bold (brightRed.paint (Text.upperCase (wordD r "outcome" "unknown")))

def searchEnd (elapsed : Duration) (r : Record) : String :=
  let amount (name unit : String) : String :=
    part (count? r name) (fun n => white.paint (grouped n) ++ " " ++ unit)
  stamp elapsed ++ " " ++ bold (brightCyan.paint "■") ++ " " ++
    bold (white.paint (wordD r "algorithm" "search")) ++ " ended │ " ++
    yellow.paint (milliseconds (count r "duration_ms")) ++ " │ " ++ verdict r ++
    amount "explored" "explored" ++ amount "generated" "generated" ++ amount "simulations" "rollouts"

/-- A count on the right of a column. -/
def column (width n : Nat) : String :=
  Text.padLeft width (grouped n)

def progress (elapsed : Duration) (r : Record) : String :=
  stamp elapsed ++ " " ++ brightCyan.paint "⚡" ++ " " ++
  match count? r "simulations" with
  | some n =>
    let best := match count? r "best" with
      | some b => "best " ++ grouped b
      | none => "none"
    white.paint (column 10 n) ++ " rollouts │ " ++
      white.paint (column 10 (count r "successes")) ++ " successes │ " ++ brightGreen.paint best
  | none =>
    white.paint (column 10 (count r "explored")) ++ " explored │ " ++
      white.paint (column 10 (count r "open")) ++ " open │ " ++
      bold (brightMagenta.paint (column 12 (count r "speed"))) ++ "/s"

def rolloutImproved (elapsed : Duration) (r : Record) : String :=
  stamp elapsed ++ " " ++ brightGreen.paint "✓" ++ " Rollout " ++
    brightBlack.paint (column 10 (count r "simulation")) ++ " │ plan length " ++
    bold (brightGreen.paint (grouped (count r "plan_length")))

def comparisonStart (elapsed : Duration) (r : Record) : String :=
  stamp elapsed ++ " " ++ brightBlue.paint "▶" ++ " Comparing A* and Monte Carlo on " ++
    bold (white.paint (wordD r "name" "problem")) ++ " │ " ++
    brightYellow.paint (grouped (count r "actions")) ++ " actions"

/-- Whether the characters of `part` stand next to each other somewhere. -/
def mentions (part : List Char) : List Char → Bool
  | [] => part.isEmpty
  | c :: cs => part.isPrefixOf (c :: cs) || mentions part cs

def comparisonSummary (r : Record) : String :=
  let line := wordD r "message" ""
  if mentions "SUCCESS".toList line.toList then brightGreen.paint line
  else if mentions "FAILED".toList line.toList || line.startsWith "Both algorithms failed" then
    brightRed.paint line
  else white.paint line

def reportWritten (elapsed : Duration) (r : Record) : String :=
  stamp elapsed ++ " " ++ brightBlue.paint "◀" ++ " " ++ wordD r "format" "report" ++
    " report written to " ++ bold (white.paint (wordD r "path" "?"))

def failure (elapsed : Duration) (r : Record) : String :=
  let engine := match word? r "algorithm" with
    | some a => bold (white.paint a) ++ ": "
    | none => ""
  let message := ((word? r "error").or (word? r "message")).getD "unknown error"
  stamp elapsed ++ " " ++ bold (brightRed.paint "✗") ++ " " ++ engine ++ brightRed.paint message

/-- The targets of the planner's own records begin with this. -/
def ownTarget : String := "planforge"

def isSearchStart (r : Record) : Bool :=
  word? r "event" == some "search_start"

/-- The line of a record, if it has one, at a time after the last search began. -/
def render (elapsed : Duration) (r : Record) : Option String :=
  if !r.target.startsWith ownTarget then none
  else match wordD r "event" "" with
    | "search_start" => some (searchStart elapsed r)
    | "search_end" => some (searchEnd elapsed r)
    | "progress" => some (progress elapsed r)
    | "rollout_improved" => some (rolloutImproved elapsed r)
    | "comparison_start" => some (comparisonStart elapsed r)
    | "comparison_summary" => some (comparisonSummary r)
    | "report_written" => some (reportWritten elapsed r)
    | "report_failed" | "engine_rejected" => some (failure elapsed r)
    | _ => if r.level = .error then some (failure elapsed r) else none

/-! ## The banner -/

def banner : String :=
  "\n" ++
  " ____  _             _____\n" ++
  "|  _ \\| | __ _ _ __ |  ___|__  _ __ __ _  ___\n" ++
  "| |_) | |/ _` | '_ \\| |_ / _ \\| '__/ _` |/ _ \\\n" ++
  "|  __/| | (_| | | | |  _| (_) | | | (_| |  __/\n" ++
  "|_|   |_|\\__,_|_| |_|_|  \\___/|_|  \\__, |\\___|\n" ++
  "                                   |___/\n"

def version : String := "0.1.0"

/-- What is printed before anything else. -/
def greeting : String :=
  brightCyan.paint banner ++ "\n" ++
  bold (brightWhite.paint ("              v" ++ version ++ " - A* and Monte Carlo Planner\n")) ++ "\n"

end Console
end GroundPlanner
