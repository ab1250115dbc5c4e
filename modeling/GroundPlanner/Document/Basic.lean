import GroundPlanner.Error
/-!
# Values in documents

Problems and configurations are read from values of a document format through the few views of the class
`DocumentValue`, so that each is described once for all formats.  A record is read entry by entry in the
order of the document, and the first fault is the one that is reported.

A value may be a reference to one that is written elsewhere in the document.  Only so many references are
followed in all.
-/
namespace GroundPlanner

/-- The views of a value in some document format.  Each gives nothing where the value has another type, which
all of them do for a reference. -/
class DocumentValue (V : Type) where
  /-- The value that a reference refers to, which is none itself. -/
  referent? : V → Option V
  text? : V → Option String
  natural? : V → Option Nat
  real? : V → Option Float
  flag? : V → Option Bool
  items? : V → Option (List V)
  /-- Whether the value stands for a missing one. -/
  null? : V → Option Bool
  /-- A name from an enumeration, and whether nothing else is said with it. -/
  constant? : V → Option (String × Bool)
  /-- The keys and values of a record with the given field names, of which the first `required` must be there
  when the record is written without names. -/
  entries? : (names : List String) → (required : Nat) → V → Option (List (V × V))

namespace DocumentValue

variable {V : Type} [DocumentValue V] {α σ : Type}

/-- Reading keeps the number of references that may still be followed. -/
abbrev Read := StateT Nat (Except DocumentFault)

def expect : Option α → Read α
  | some a => pure a
  | none => throw .malformed

/-- The value itself, or the one that it refers to. -/
def follow (v : V) : Read V :=
  match referent? v with
  | none => return v
  | some w => do
    match ← get with
    | 0 => throw .malformed
    | left + 1 =>
      set left
      return w

/-- What a view shows of a value, or of the one that it refers to. -/
def look (view : V → Option α) (v : V) : Read α := do
  expect (view (← follow v))

def text : V → Read String := look text?
def natural : V → Read Nat := look natural?
def real : V → Read Float := look real?
def flag : V → Read Bool := look flag?

def list (read : V → Read α) (v : V) : Read (List α) := do
  (← look items? v).mapM read

def texts (v : V) : Read (List String) :=
  list text v

def optional (read : V → Read α) (v : V) : Read (Option α) := do
  let v ← follow v
  if ← expect (null? v) then return none else return some (← read v)

/-- One of the constants of an enumeration by its label. -/
def constant (all : List α) (label : α → String) (v : V) : Read α := do
  let (name, bare) ← look constant? v
  match all.find? (fun a => label a = name) with
  | none => throw (.unknownName name (all.map label))
  | some a => if bare then return a else throw .malformed

/-- Reads one entry of a record into `s`; `seen` holds the fields that were already read.  An entry with an
unknown key is passed over. -/
def readEntry (names : List String) (set : σ → String → V → Read σ) (acc : σ × List String)
    (entry : V × V) : Read (σ × List String) := do
  let k ← text entry.1
  if k ∉ names then return acc
  else if k ∈ acc.2 then throw .malformed
  else return (← set acc.1 k entry.2, k :: acc.2)

/-- Reads a record field by field, beginning with the defaults, and gives the fields that were there, too. -/
def record (names : List String) (required : Nat) (set : σ → String → V → Read σ) (defaults : σ) (v : V) :
    Read (σ × List String) := do
  (← look (entries? names required) v).foldlM (readEntry names set) (defaults, [])

end DocumentValue
end GroundPlanner
