import GroundPlanner.Yaml.Token
/-!
# YAML nodes

The tokens of a text are put together to a tree of nodes.  An alias is the number of a slot.  Of the nodes
whose anchors have that slot, the one that begins last stands in it (`Document.slots`), so a node may contain
itself.

Where the tokens end too early or do not fit, the tree ends in a `broken` node, and every collection around
it ends in one, too.
-/
namespace GroundPlanner
namespace Yaml

inductive Node where
  | scalar (tag : Option Tag) (style : Style) (text : String)
  | sequence (tag : Option Tag) (items : List Node)
  | mapping (tag : Option Tag) (entries : List (Node × Node))
  | alias (slot : Nat)
  | broken

namespace Node

/-- The node where nothing is written. -/
def empty : Node := .scalar none .plain ""

mutual

/-- The number of events that tell of a node: one of a scalar or an alias, and two of a collection, at its
beginning and its end, beside those of its members.  No event tells of the end of one that is cut short. -/
def events : Node → Nat
  | .scalar .. | .alias _ => 1
  | .broken => 0
  | .sequence _ items => 1 + itemEvents items
  | .mapping _ entries => 1 + entryEvents entries

def itemEvents : List Node → Nat
  | [] => 1
  | .broken :: _ => 0
  | n :: ns => n.events + itemEvents ns

def entryEvents : List (Node × Node) → Nat
  | [] => 1
  | (.broken, _) :: _ => 0
  | (k, .broken) :: _ => k.events
  | (k, v) :: es => k.events + v.events + entryEvents es

end

end Node

/-- The tokens that are left, and what was named so far. -/
structure Feed where
  tokens : List Token
  /-- What the handles of tags stand for. -/
  handles : List (String × Tag)
  /-- The anchors and their slots, latest first. -/
  anchors : List (String × Nat) := []
  /-- What stands in the slots; nodes that begin later come first. -/
  slots : List (Nat × Node) := []

namespace Feed

def drop (f : Feed) : Feed :=
  { f with tokens := f.tokens.drop 1 }

/-- Nothing is read after a token that does not fit. -/
def stop (f : Feed) : Feed :=
  { f with tokens := [] }

/-- The token that is next is one of these. -/
def atAny (f : Feed) (ts : List Token) : Bool :=
  f.tokens.head?.any ts.contains

/-- Gives an anchor its slot: the number of different names before it. -/
def anchor (f : Feed) (name : String) : Feed × Nat :=
  let slot := (f.anchors.map Prod.fst).eraseDups.length
  ({ f with anchors := (name, slot) :: f.anchors }, slot)

/-- Puts a node into its slot.  The nodes inside it, which were put there since `before`, begin later. -/
def fill (f before : Feed) (slot : Nat) (n : Node) : Feed :=
  let inner := f.slots.take (f.slots.length - before.slots.length)
  { f with slots := inner ++ (slot, n) :: before.slots }

/-- The tag with its handle replaced by what it stands for. -/
def resolve (f : Feed) (handle : String) (suffix : Tag) : Option Tag :=
  if handle.isEmpty then some suffix else (f.handles.lookup handle).map (· ++ suffix)

/-- Repeats a step as long as it gives something and takes tokens. -/
def collect {α : Type} (step : Feed → Option α × Feed) (f : Feed) : List α × Feed :=
  match step f with
  | (none, g) => ([], g)
  | (some a, g) =>
    if g.tokens.length < f.tokens.length then
      let (as, last) := collect step g
      (a :: as, last)
    else ([a], g.stop)
termination_by f.tokens.length

end Feed

/-- A way to take a node from the tokens. -/
abbrev Grammar := Feed → Node × Feed

namespace Node

/-- The properties before a node: an anchor and a tag in either order, each at most once. -/
def properties (f : Feed) : Option String × Option (String × Tag) × Feed :=
  match f.tokens with
  | .anchor a :: .tag h s :: rest => (some a, some (h, s), { f with tokens := rest })
  | .tag h s :: .anchor a :: rest => (some a, some (h, s), { f with tokens := rest })
  | .anchor a :: rest => (some a, none, { f with tokens := rest })
  | .tag h s :: rest => (none, some (h, s), { f with tokens := rest })
  | _ => (none, none, f)

/-- A node, or an empty one in front of any of the tokens that may follow it. -/
def orEmpty (followers : List Token) (node : Grammar) : Grammar := fun f =>
  if f.atAny followers then (empty, f) else node f

/-- Takes the closing token of a sequence, or marks it as cut short. -/
def closeSequence (close : Option Token) (tag : Option Tag) (items : List Node) : Grammar := fun f =>
  match f.tokens, close with
  | [], _ => (.sequence tag (items ++ [.broken]), f)
  | _, none => (.sequence tag items, f)
  | t :: _, some c => if t = c then (.sequence tag items, f.drop) else (.sequence tag (items ++ [.broken]), f.stop)

def closeMapping (close : Token) (tag : Option Tag) (entries : List (Node × Node)) : Grammar := fun f =>
  if f.atAny [close] then (.mapping tag entries, f.drop)
  else (.mapping tag (entries ++ [(.broken, .broken)]), f.stop)

/-! ## Block collections -/

def blockItem (followers : List Token) (node : Grammar) (f : Feed) : Option Node × Feed :=
  if f.atAny [.blockEntry] then
    let (n, f) := orEmpty followers node f.drop
    (some n, f)
  else (none, f)

/-- A sequence at an indentation of its own, after its first token. -/
def blockSequence (node : Grammar) (tag : Option Tag) : Grammar := fun f =>
  let (items, f) := f.collect (blockItem [.blockEntry, .blockEnd] node)
  closeSequence (some .blockEnd) tag items f

/-- A sequence as the value of a mapping at the same indentation; no token of its own ends it. -/
def flushSequence (node : Grammar) (tag : Option Tag) : Grammar := fun f =>
  let (items, f) := f.collect (blockItem [.blockEntry, .key, .value, .blockEnd] node)
  closeSequence none tag items f

/-- What follows a key: a value if the colon is there, or nothing. -/
def valueAfterKey (followers : List Token) (node : Grammar) : Grammar := fun f =>
  match f.tokens with
  | [] => (.broken, f)
  | .value :: _ => orEmpty followers node f.drop
  | _ => (empty, f)

def blockPair (node : Grammar) (f : Feed) : Option (Node × Node) × Feed :=
  if f.atAny [.key] then
    let followers : List Token := [.key, .value, .blockEnd]
    let (k, f) := orEmpty followers node f.drop
    let (v, f) := valueAfterKey followers node f
    (some (k, v), f)
  else (none, f)

def blockMapping (node : Grammar) (tag : Option Tag) : Grammar := fun f =>
  let (entries, f) := f.collect (blockPair node)
  closeMapping .blockEnd tag entries f

/-! ## Flow collections -/

/-- Passes the comma before every member but the first. -/
def comma (first : Bool) (f : Feed) : Feed :=
  if first then f else if f.atAny [.flowEntry] then f.drop else f.stop

/-- A mapping with one entry that is written as a member of a flow sequence. -/
def singlePair (node : Grammar) : Grammar := fun f =>
  let (k, f) := if f.atAny [.value, .flowEntry, .flowSequenceEnd] then (empty, f.drop) else node f
  let (v, f) := valueAfterKey [.flowEntry, .flowSequenceEnd] node f
  (.mapping none ((k, v) :: if f.tokens.isEmpty then [(.broken, .broken)] else []), f)

def flowItem (node : Grammar) (first : Bool) (f : Feed) : Option Node × Feed :=
  if f.atAny [.flowSequenceEnd] then (none, f)
  else
    let f := comma first f
    if f.tokens.isEmpty || f.atAny [.flowSequenceEnd] then (none, f)
    else if f.atAny [.key] then
      let (n, f) := singlePair node f.drop
      (some n, f)
    else
      let (n, f) := node f
      (some n, f)

def flowPair (node : Grammar) (first : Bool) (f : Feed) : Option (Node × Node) × Feed :=
  if f.atAny [.flowMappingEnd] then (none, f)
  else
    let f := comma first f
    if f.tokens.isEmpty || f.atAny [.flowMappingEnd] then (none, f)
    else if f.atAny [.key] then
      let (k, f) := orEmpty [.value, .flowEntry, .flowMappingEnd] node f.drop
      let (v, f) := valueAfterKey [.flowEntry, .flowMappingEnd] node f
      (some (k, v), f)
    else
      let (k, f) := node f
      (some (k, if f.tokens.isEmpty then .broken else empty), f)

/-- The members of a flow collection; `step` is told whether it takes the first one. -/
def members {α : Type} (step : Bool → Feed → Option α × Feed) (f : Feed) : List α × Feed :=
  match step true f with
  | (none, f) => ([], f)
  | (some a, f) =>
    let (as, f) := f.collect (step false)
    (a :: as, f)

def flowSequence (node : Grammar) (tag : Option Tag) : Grammar := fun f =>
  let (items, f) := members (flowItem node) f
  closeSequence (some .flowSequenceEnd) tag items f

def flowMapping (node : Grammar) (tag : Option Tag) : Grammar := fun f =>
  let (entries, f) := members (flowPair node) f
  closeMapping .flowMappingEnd tag entries f

/-! ## Nodes -/

/-- Where a node stands. -/
inductive Place where
  | flow
  | block
  /-- The key or the value of a block mapping, where a sequence need not be indented. -/
  | pair
deriving DecidableEq

/-- The contents of a node after its properties; `node` reads the nodes inside. -/
def content (node : Place → Grammar) (place : Place) (bare : Bool) (tag : Option Tag) : Grammar := fun f =>
  match f.tokens with
  | .scalar style text :: _ => (.scalar tag style text, f.drop)
  | .flowSequence :: _ => flowSequence (node .flow) tag f.drop
  | .flowMapping :: _ => flowMapping (node .flow) tag f.drop
  | t :: _ =>
    if t = .blockEntry ∧ place = .pair then flushSequence (node .block) tag f
    else if t = .blockSequence ∧ place ≠ .flow then blockSequence (node .block) tag f.drop
    else if t = .blockMapping ∧ place ≠ .flow then blockMapping (node .pair) tag f.drop
    else if bare then (.broken, f.stop)
    else (.scalar tag .plain "", f)
  | [] => (.broken, f)

/-- A node with fewer than `depth` collections around its innermost part. -/
def read : (depth : Nat) → Place → Grammar
  | 0, _, f => (.broken, f.stop)
  | depth + 1, place, f =>
    match f.tokens with
    | .alias name :: _ =>
      match f.anchors.lookup name with
      | some slot => (.alias slot, f.drop)
      | none => (.broken, f.stop)
    | _ =>
      let (name, tag, f) := properties f
      let resolved := tag.map (fun (h, s) => f.resolve h s)
      let bare := name.isNone && tag.isNone
      match resolved, name with
      | some none, _ => (.broken, f.stop)
      | t, none => content (read depth) place bare t.join f
      | t, some name =>
        let (f, slot) := f.anchor name
        let (n, g) := content (read depth) place bare t.join f
        (n, g.fill f slot n)

end Node

/-! ## Documents -/

/-- The first document of a text. -/
structure Document where
  root : Node
  slots : List (Nat × Node)
  /-- The text keeps all rules and holds no further document. -/
  complete : Bool

namespace Document

def defaultHandles : List (String × Tag) :=
  [("!", .ofText "!"), ("!!", .ofText "tag:yaml.org,2002:")]

/-- Reads the directives before a document: at most one version, and each handle once.  The given handles
come before the default ones. -/
def directives (versioned : Bool) (handles : List (String × Tag)) :
    List Token → Option (List (String × Tag) × List Token)
  | .version major minor :: ts =>
    if versioned || major != 1 || (minor != 1 && minor != 2) then none else directives true handles ts
  | .shorthand h e :: ts =>
    if (handles.lookup h).isSome then none else directives versioned ((h, e) :: handles) ts
  | .documentStart :: ts => some (handles ++ defaultHandles, ts)
  | _ => none

/-- The document that begins with these tokens. -/
def ofBody (handles : List (String × Tag)) (ts : List Token) : Document :=
  let f : Feed := { tokens := ts, handles := handles }
  let (root, f) := Node.read (ts.length + 1) .block f
  { root := root
    slots := f.slots
    complete := f.tokens.dropWhile (· == .documentEnd) == [.streamEnd] }

def nothing (ts : List Token) : Document :=
  ⟨.empty, [], ts.dropWhile (· == .documentEnd) == [.streamEnd]⟩

/-- An explicit document may be empty; so may a whole text. -/
def ofTokens : List Token → Document
  | [.streamEnd] => ⟨.empty, [], true⟩
  | ts =>
    if ts.head?.any (fun t => t matches .version .. | .shorthand .. | .documentStart) then
      match directives false [] ts with
      | none => ⟨.broken, [], false⟩
      | some (handles, rest) =>
        if rest.head?.any (fun t => t matches .version .. | .shorthand .. | .documentStart | .documentEnd |
            .streamEnd) then
          nothing rest
        else ofBody handles rest
    else ofBody defaultHandles ts

def ofText (text : String) : Document :=
  ofTokens (Token.ofText text)

/-- How many aliases may be followed when the document is read, so that it cannot be read over and over: a
hundred times as many as it has events. -/
def maxFollowed (d : Document) : Nat :=
  100 * d.root.events

end Document
end Yaml
end GroundPlanner
