/-!
# TOML values and tables

A document is a sequence of sections, each a header and the assignments below it.  `Document.table` puts
them together.  What may be extended later depends on how a table came to be, so each table carries its
`Origin`: only a table that so far exists for the sake of its descendants may be opened by a header, only
dotted keys may extend a table made by dotted keys, and an inline table is closed for good.
-/
namespace GroundPlanner
namespace Toml

/-- How a table came to be. -/
inductive Origin where
  /-- Opened by a header. -/
  | header
  /-- Named on the way in the header of a descendant. -/
  | implied
  /-- Named on the way in a dotted key. -/
  | dotted
  /-- Written between braces. -/
  | inline
deriving DecidableEq, Repr

inductive Value where
  | text (s : String)
  | integer (n : Int)
  | real (x : Float)
  | flag (b : Bool)
  | date
  | array (xs : List Value)
  /-- The tables of one name that were opened by doubled headers. -/
  | tables (ts : List (List (String × Value)))
  | table (origin : Origin) (entries : List (String × Value))

instance : Inhabited Value := ⟨.date⟩

/-- The entries of a table in the order of their appearance. -/
abbrev Entries := List (String × Value)

structure Assignment where
  path : List String
  value : Value

structure Section where
  path : List String
  /-- The header stands in doubled brackets. -/
  doubled : Bool
  assignments : List Assignment

structure Document where
  top : List Assignment
  sections : List Section

namespace Entries

def replace (es : Entries) (key : String) (v : Value) : Entries :=
  es.map (fun e => if e.1 = key then (key, v) else e)

/-- Adds an entry whose key must be new. -/
def add? (es : Entries) (key : String) (v : Value) : Option Entries :=
  if (es.lookup key).isSome then none else some (es ++ [(key, v)])

/-- Changes the table at the end of a path, making those that are missing on the way.

Below an array of tables the way goes on in its last table.  With `dotted` the path belongs to a dotted
key, which may not pass through a table opened by a header. -/
def modify? (dotted : Bool) (change : Origin → Entries → Option Entries) :
    List String → Origin → Entries → Option Entries
  | [], origin, es => change origin es
  | key :: path, _, es =>
    match es.lookup key with
    | none => do
      let made : Origin := if dotted then .dotted else .implied
      let inner ← modify? dotted change path made []
      return es ++ [(key, .table made inner)]
    | some (.table origin inner) =>
      if origin = .inline ∨ (dotted ∧ origin = .header) then none
      else do
        let inner ← modify? dotted change path origin inner
        return es.replace key (.table origin inner)
    | some (.tables ts) => do
      let last ← ts.getLast?
      let inner ← modify? dotted change path .header last
      return es.replace key (.tables (ts.dropLast ++ [inner]))
    | some _ => none

/-- Assigns a value below the table of a section.  A dotted key ends in a table made by dotted keys. -/
def assign? (es : Entries) (a : Assignment) : Option Entries := do
  let key ← a.path.getLast?
  let way := a.path.dropLast
  modify? true
    (fun origin inner => if way.isEmpty || origin = .dotted then inner.add? key a.value else none)
    way .header es

def assignAll? (es : Entries) (as : List Assignment) : Option Entries :=
  as.foldlM assign? es

/-- Opens the section in the table that holds it.

A single header takes over a table that was only implied, and moves it to the end; a doubled one adds a
table to an array of tables. -/
def open? (key : String) (s : Section) (es : Entries) : Option Entries :=
  match s.doubled, es.lookup key with
  | false, none => do
    return es ++ [(key, .table .header (← assignAll? [] s.assignments))]
  | false, some (.table .implied inner) => do
    return es.filter (fun e => e.1 != key) ++ [(key, .table .header (← assignAll? inner s.assignments))]
  | true, none => do
    return es ++ [(key, .tables [← assignAll? [] s.assignments])]
  | true, some (.tables ts) => do
    return es.replace key (.tables (ts ++ [← assignAll? [] s.assignments]))
  | _, some _ => none

def addSection? (es : Entries) (s : Section) : Option Entries := do
  let key ← s.path.getLast?
  modify? false (fun _ inner => inner.open? key s) s.path.dropLast .header es

end Entries

/-- The table that a document describes, unless it gives some name two meanings. -/
def Document.table? (d : Document) : Option Entries := do
  let top ← Entries.assignAll? [] d.top
  d.sections.foldlM Entries.addSection? top

end Toml
end GroundPlanner
