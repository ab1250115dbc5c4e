import GroundPlanner.Log.Record
import GroundPlanner.Text.Alphanumeric
import GroundPlanner.Text.Basic
import GroundPlanner.Text.Digits
/-!
# Which records are shown

A filter is written as rules with commas between them.  A rule is a level for all records, a target alone,
whose records are all shown, or a target and a level for the records of it.  Between the target and the level
a rule may speak, in brackets, of the spans that records are logged in, and of a field that they must have:
`target[span{field=value}]=level`.

Of the rules that apply to a record the most special one decides; where no rule applies, the record is not
shown.
-/
namespace GroundPlanner
namespace Console

/-- A rule of a filter. -/
structure Rule where
  /-- The beginning of the targets that the rule applies to; the empty target stands for all. -/
  target : String := ""
  /-- A field that a record must have. -/
  field : Option String := none
  /-- The rule asks for a span or for the value of a field.  No record here is logged in a span, so it applies
  to none. -/
  inSpan : Bool := false
  /-- The greatest verbosity that is let through. -/
  verbosity : Nat
deriving DecidableEq, Repr

namespace Rule

def applies (rule : Rule) (r : Log.Record) : Bool :=
  !rule.inSpan && rule.target.isPrefixOf r.target && rule.field.all (fun f => (r.field? f).isSome)

/-- Whether a rule is at least as special as another one: it has the longer target, or asks for a field where
the other does not, or for one that comes later in the alphabet. -/
def isAsSpecial (a b : Rule) : Bool :=
  if a.target.length = b.target.length then
    match a.field, b.field with
    | _, none => true
    | none, some _ => false
    | some f, some g => !(f < g)
  else b.target.length < a.target.length

/-! ## Reading -/

/-- The verbosity of a level's number or name. -/
def verbosityOf? (s : String) : Option Nat :=
  let digits := match s.toList with
    | '+' :: ds => ds
    | ds => ds
  match Text.digits? 10 digits with
  | some n => if n ≤ Log.Level.verbosity .trace then some n else none
  | none =>
    if Text.equalIgnoringCase s "off" then some 0 else (Log.Level.ofName? s).map Log.Level.verbosity

/-- The characters that a rule may begin with, beside an opening bracket. -/
def mayBegin (c : Char) : Bool :=
  Text.isAlphanumeric c || c = '-' || c = ':' || c = '_'

/-- The number of octets that the characters take. -/
def width (cs : List Char) : Nat :=
  cs.foldl (fun n c => n + c.utf8Size) 0

/-- A rule as it is written.  Its parts are found in `body`, the text without the blanks around it, and are
cut out of `whole`, the text with them, at the same distance from the beginning. -/
structure Written where
  whole : ByteArray
  body : List Char

namespace Written

def ofText (s : String) : Written :=
  ⟨s.toUTF8, (Text.trim s).toList⟩

/-- The distance of an end of the body from its beginning. -/
def place (w : Written) (rest : List Char) : Nat :=
  width w.body - width rest

/-- The part between two ends of the body. -/
def between (w : Written) (first last : List Char) : Option String :=
  String.fromUTF8? (w.whole.extract (w.place first) (w.place last))

/-- Everything from an end of the body on. -/
def from? (w : Written) (first : List Char) : Option String :=
  String.fromUTF8? (w.whole.extract (w.place first) w.whole.size)

/-- The level after the equals sign.  Without one everything is let through. -/
def level? (w : Written) (rest : List Char) : Option Nat := do
  let s ← w.from? rest
  if s.isEmpty then return Log.Level.verbosity .trace else verbosityOf? s

/-- The end of a rule after the closing bracket. -/
def afterBracket (w : Written) (verbosity : Nat → Rule) : List Char → Option Rule
  | [] => some (verbosity (Log.Level.verbosity .trace))
  | '=' :: rest => (w.level? rest).map verbosity
  | _ => none

/-- A rule from the opening bracket on: the name of a span, a field between braces, or both. -/
def bracket (w : Written) (target : String) (first : List Char) : Option Rule :=
  match first.dropWhile (fun c => c ≠ ']' && c ≠ '\x7b') with
  | ']' :: rest => w.afterBracket (fun v => ⟨target, none, true, v⟩) rest
  | '\x7b' :: inner => do
    let named := inner.length + 1 < first.length
    let close := inner.dropWhile (· ≠ '\x7d')
    let field ← w.between inner close
    if field.isEmpty then none
    match close with
    | '\x7d' :: ']' :: rest =>
      w.afterBracket (fun v => ⟨target, some field, named || field.toList.contains '=', v⟩) rest
    | _ => none
  | _ => none

/-- The rule that is written. -/
def rule? (w : Written) : Option Rule :=
  match w.body with
  | [] => none
  | '[' :: rest => w.bracket "" rest
  | c :: _ => do
    if !mayBegin c then none
    let rest := w.body.dropWhile (fun c => c ≠ '=' && c ≠ '[')
    match rest with
    | '=' :: level => return { target := ← w.between w.body rest, verbosity := ← w.level? level }
    | '[' :: inner => w.bracket (← w.between w.body rest) inner
    | _ =>
      let s ← w.from? w.body
      match verbosityOf? s with
      | some v => return { verbosity := v }
      | none => return { target := s, verbosity := Log.Level.verbosity .trace }

end Written
end Rule

abbrev Filter := List Rule

namespace Filter

/-- A filter from its text.  Without any rule it shows errors. -/
def parse? (s : String) : Option Filter := do
  let texts := (s.toList.splitOnP (· == ',')).map String.ofList
  match ← (texts.filter (· != "")).mapM (fun t => (Rule.Written.ofText t).rule?) with
  | [] => return [{ verbosity := Log.Level.verbosity .error }]
  | rules => return rules

/-- Shows the planner's own records that are no details. -/
def default : Filter :=
  [{ target := "planforge", verbosity := Log.Level.verbosity .info }]

/-- The rule that decides about a record: of those that apply the most special one, and of several such the
last. -/
def deciding? (f : Filter) (r : Log.Record) : Option Rule :=
  (f.filter (fun rule => rule.applies r)).foldl (fun best rule => match best with
    | none => some rule
    | some b => if rule.isAsSpecial b then some rule else some b) none

def shows (f : Filter) (r : Log.Record) : Bool :=
  match f.deciding? r with
  | some rule => r.level.verbosity ≤ rule.verbosity
  | none => false

end Filter
end Console
end GroundPlanner
