import GroundPlanner.Document.Basic
import GroundPlanner.Toml.Parser
/-!
# TOML values as document values

Integers may stand for real numbers, but not the other way round.  A record is a table, or the array of its
fields in their order; a date has no field that any record knows.
-/
namespace GroundPlanner
namespace Toml
namespace Value

def text? : Value → Option String
  | .text s => some s
  | _ => none

def natural? : Value → Option Nat
  | .integer n => if 0 ≤ n then some n.toNat else none
  | _ => none

def real? : Value → Option Float
  | .real x => some x
  | .integer n => some (Float.ofInt n)
  | _ => none

def flag? : Value → Option Bool
  | .flag b => some b
  | _ => none

def items? : Value → Option (List Value)
  | .array xs => some xs
  | .tables ts => some (ts.map (.table .header))
  | _ => none

def isEmpty : Value → Bool
  | .array xs => xs.isEmpty
  | .table _ es => es.isEmpty
  | _ => false

/-- A name alone, or as the only key of a table; then an empty collection says nothing else. -/
def constant? : Value → Option (String × Bool)
  | .text s => some (s, true)
  | .table _ [(name, v)] => some (name, v.isEmpty)
  | _ => none

def fields? (names : List String) (required : Nat) : Value → Option (List (Value × Value))
  | .table _ es => some (es.map (fun e => (.text e.1, e.2)))
  | .date => some []
  | v => do
    let xs ← v.items?
    if xs.length < required then none else return (names.map .text).zip xs

instance : DocumentValue Value where
  referent? _ := none
  text? := text?
  natural? := natural?
  real? := real?
  flag? := flag?
  items? := items?
  null? _ := some false
  constant? := constant?
  entries? := fields?

end Value

/-- The value of a text. -/
def read? (s : String) : Option Value :=
  (parse? s).map (.table .header)

end Toml
end GroundPlanner
