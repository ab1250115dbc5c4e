import GroundPlanner.Decimal.Read
import GroundPlanner.Document.Basic
import GroundPlanner.Yaml.Node
/-!
# YAML nodes as document values

Every scalar is a text.  A plain one may be a number, a truth value or null as well; so may a literal block
scalar that is tagged as one, null excepted.  A plain scalar without characters also stands for an empty
collection.
-/
namespace GroundPlanner
namespace Yaml

/-- A node and the slots that its aliases speak of. -/
structure Value where
  slots : List (Nat × Node)
  node : Node

namespace Value

/-- The node that an alias stands for. -/
def referent? (v : Value) : Option Value :=
  match v.node with
  | .alias slot => some ⟨v.slots, (v.slots.lookup slot).getD .broken⟩
  | _ => none

/-- The tag of a kind of values of the core schema. -/
def coreTag (kind : String) : Tag :=
  .ofText ("tag:yaml.org,2002:" ++ kind)

/-- The text of a scalar that may be a value of a kind of the core schema. -/
def untyped? (kind : String) (v : Value) : Option String :=
  match v.node with
  | .scalar _ .plain s => some s
  | .scalar (some t) .literal s => if t = coreTag kind then some s else none
  | _ => none

def text? (v : Value) : Option String :=
  match v.node with
  | .scalar _ _ s => some s
  | _ => none

def dropPlus : List Char → List Char
  | '+' :: cs => cs
  | cs => cs

/-- Digits after a mark of their base, or decimal digits without leading zeros. -/
def magnitude? : List Char → Option Nat
  | '0' :: 'x' :: ds => Text.digits? 16 ds
  | '0' :: 'o' :: ds => Text.digits? 8 ds
  | '0' :: 'b' :: ds => Text.digits? 2 ds
  | '0' :: _ :: _ => none
  | ds => Text.digits? 10 ds

/-- A word of 64 bits. -/
def natural? (v : Value) : Option Nat := do
  let n ← magnitude? (dropPlus (← v.untyped? "int").toList)
  if n < UInt64.size then some n else none

def readReal (s : String) : Option Float :=
  let magnitude := String.ofList (dropPlus s.toList)
  if [".inf", ".Inf", ".INF"].contains magnitude then some (1.0 / 0.0)
  else if ["-.inf", "-.Inf", "-.INF"].contains s then some (-1.0 / 0.0)
  else if [".nan", ".NaN", ".NAN"].contains s then some (Float.ofBits 0x7ff8000000000000)
  else if s.startsWith "++" || s.startsWith "+-" then none
  else (Decimal.parse? s).filter Float.isFinite

def real? (v : Value) : Option Float := do
  readReal (← v.untyped? "float")

def flag? (v : Value) : Option Bool := do
  let s ← v.untyped? "bool"
  if ["true", "True", "TRUE"].contains s then some true
  else if ["false", "False", "FALSE"].contains s then some false
  else none

def isNullWord (s : String) : Bool :=
  ["null", "Null", "NULL", "~"].contains s

/-- A tag other than that of null makes any scalar a value. -/
def null? (v : Value) : Option Bool :=
  match v.node with
  | .scalar none .plain s => some (s.isEmpty || isNullWord s)
  | .scalar (some t) .plain s =>
    if t = coreTag "null" then (if isNullWord s then some true else none) else some false
  | .broken => none
  | _ => some false

def items? (v : Value) : Option (List Value) :=
  match v.node with
  | .sequence _ xs => some (xs.map (Value.mk v.slots))
  | .scalar _ .plain "" => some []
  | _ => none

/-- The name in a tag of the document's own, if it is a text. -/
def localName? (tag : Option Tag) : Option String := do
  match (← tag) with
  | [0x21] => some "!"
  | 0x21 :: octets => String.fromUTF8? ⟨octets.toArray⟩
  | _ => none

/-- The tag itself is the name, if it is one of the document's own, and then nothing but null may follow. -/
def constant? (v : Value) : Option (String × Bool) :=
  match v.node with
  | .scalar tag style s =>
    match localName? tag with
    | some name => some (name, style = .plain && (s.isEmpty || isNullWord s))
    | none => some (s, true)
  | .sequence tag _ => (localName? tag).map (·, false)
  | .mapping tag _ => (localName? tag).map (·, false)
  | _ => none

def fields? (v : Value) : Option (List (Value × Value)) :=
  match v.node with
  | .mapping _ es => some (es.map (fun e => (⟨v.slots, e.1⟩, ⟨v.slots, e.2⟩)))
  | .scalar _ .plain "" => some []
  | _ => none

instance : DocumentValue Value where
  referent? := referent?
  text? := text?
  natural? := natural?
  real? := real?
  flag? := flag?
  items? := items?
  null? := null?
  constant? := constant?
  entries? _ _ := fields?

end Value
end Yaml
end GroundPlanner
