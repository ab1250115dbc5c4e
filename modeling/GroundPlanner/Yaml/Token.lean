import GroundPlanner.Yaml.Scalar
/-!
# YAML tokens

A text is cut into tokens from left to right.  Whether a scalar is the key of a mapping shows only at the
colon after it, so for each level of flow collections the place where a key may have begun is kept
(`PendingKey`), and the tokens of the key are put in there later.  The indentation of block collections is
kept as the stack of their columns.

A text that breaks the rules gives the tokens before that place, except those that still wait for a colon
to be told from keys.
-/
namespace GroundPlanner
namespace Yaml

inductive Style where
  | plain
  | quoted
  | literal
  | folded
deriving DecidableEq, Repr

/-- The octets of a tag, which need not be those of a text. -/
abbrev Tag := List UInt8

def Tag.ofText (s : String) : Tag :=
  s.toUTF8.toList

inductive Token where
  | version (major minor : Nat)
  | shorthand (handle : String) (expansion : Tag)
  | documentStart
  | documentEnd
  | streamEnd
  | blockSequence
  | blockMapping
  | blockEnd
  | flowSequence
  | flowSequenceEnd
  | flowMapping
  | flowMappingEnd
  | blockEntry
  | flowEntry
  | key
  | value
  | alias (name : String)
  | anchor (name : String)
  | tag (handle : String) (suffix : Tag)
  | scalar (style : Style) (text : String)
deriving DecidableEq, Repr

/-- A place where a key may have begun. -/
structure PendingKey where
  /-- The number of the first token of the key. -/
  token : Nat
  /-- A colon must follow, since the mapping could not go on otherwise. -/
  required : Bool
  index : Nat
  line : Nat
  column : Nat

/-- The greatest distance between the beginning of a key and its colon, in octets. -/
def maxKeyLength : Nat := 1024

structure Scan where
  cursor : Cursor
  /-- The columns of the open block collections, innermost first. -/
  indents : List Nat := []
  /-- A slot for a pending key at each level of flow collections, innermost first. -/
  keys : List (Option PendingKey) := [none]
  keyAllowed : Bool := true
  tokens : Array Token := #[]
  /-- The text ends where the cursor's rest does. -/
  whole : Bool := true

namespace Scan

def inFlow (s : Scan) : Bool :=
  1 < s.keys.length

def emit (s : Scan) (t : Token) : Scan :=
  { s with tokens := s.tokens.push t }

/-- A block collection may begin at a column to the right of all open ones. -/
def deeper (s : Scan) (column : Nat) : Bool :=
  match s.indents with
  | [] => true
  | i :: _ => i < column

def setKey (s : Scan) (k : Option PendingKey) : Scan :=
  { s with keys := k :: s.keys.drop 1 }

def currentKey (s : Scan) : Option PendingKey :=
  s.keys.head?.join

/-- A key stands on one line and is not too long. -/
def stale (s : Scan) (k : PendingKey) : Bool :=
  k.line < s.cursor.line || k.index + maxKeyLength < s.cursor.index

/-- The tokens that are certain: those before the first that may still turn out to begin a key. -/
def settled (s : Scan) : List Token :=
  let pending := s.keys.reduceOption.filter (fun k => !s.stale k)
  (s.tokens.take (pending.foldl (fun n k => min n k.token) s.tokens.size)).toList

/-! ## Keys and indentation -/

/-- Gives up the pending key of this level. -/
def dropKey (s : Scan) : Option Scan :=
  if s.currentKey.any PendingKey.required then none else some (s.setKey none)

/-- Notes that a key may begin here. -/
def beginKey (s : Scan) : Option Scan := do
  if !s.keyAllowed then return s
  let s ← s.dropKey
  return s.setKey (some {
    token := s.tokens.size
    required := !s.inFlow && s.indents.head? = some s.cursor.column
    index := s.cursor.index
    line := s.cursor.line
    column := s.cursor.column })

/-- Ends the block collections that begin to the right of a column. -/
def closeAbove (column : Nat) (tokens : Array Token) : List Nat → Array Token × List Nat
  | [] => (tokens, [])
  | i :: is => if column < i then closeAbove column (tokens.push .blockEnd) is else (tokens, i :: is)

def unroll (s : Scan) (column : Nat) : Scan :=
  if s.inFlow then s
  else
    let (tokens, indents) := closeAbove column s.tokens s.indents
    { s with tokens := tokens, indents := indents }

def unrollAll (s : Scan) : Scan :=
  if s.inFlow then s
  else { s with tokens := s.tokens ++ (s.indents.map (fun _ => Token.blockEnd)).toArray, indents := [] }

/-- Begins a block collection at a column, unless it is one that is open there. -/
def roll (s : Scan) (column : Nat) (position : Nat) (t : Token) : Scan :=
  if s.inFlow || !s.deeper column then s
  else { s with indents := column :: s.indents, tokens := s.tokens.insertIdxIfInBounds position t }

def rollHere (s : Scan) (t : Token) : Scan :=
  s.roll s.cursor.column s.tokens.size t

/-! ## Tokens -/

/-- Passes blanks, comments and line breaks.  In block context a new line may begin a key; a tab counts as a
blank where no key may begin. -/
def skipTrivia (flow : Bool) : (allowed fresh comment : Bool) → List Char → Bool × List Char
  | allowed, _, _, [] => (allowed, [])
  | allowed, _, _, '\r' :: '\n' :: cs => skipTrivia flow (allowed || !flow) true false cs
  | allowed, fresh, comment, c :: cs =>
    if isBreak c then skipTrivia flow (allowed || !flow) true false cs
    else if comment then skipTrivia flow allowed false true cs
    else if c = '\ufeff' && fresh then skipTrivia flow allowed false false cs
    else if c = ' ' || (c = '\t' && (flow || !allowed)) then skipTrivia flow allowed false false cs
    else if c = '#' then skipTrivia flow allowed false true cs
    else (allowed, c :: cs)

def toNextToken (s : Scan) : Scan :=
  let (allowed, rest) := skipTrivia s.inFlow s.keyAllowed (s.cursor.column == 0) false s.cursor.rest
  { s with cursor := s.cursor.moveTo rest, keyAllowed := allowed }

def moveTo (s : Scan) (rest : List Char) : Scan :=
  { s with cursor := s.cursor.moveTo rest }

/-- Takes a token of fixed length. -/
def take (s : Scan) (length : Nat) (t : Token) : Scan :=
  (s.moveTo (s.cursor.rest.drop length)).emit t

def allowKey (s : Scan) (allowed : Bool) : Scan :=
  { s with keyAllowed := allowed }

def openFlow (s : Scan) (t : Token) : Option Scan := do
  let s ← s.beginKey
  return ({ s with keys := none :: s.keys }.allowKey true).take 1 t

def closeFlow (s : Scan) (t : Token) : Option Scan := do
  let s ← s.dropKey
  let s := if s.inFlow then { s with keys := s.keys.drop 1 } else s
  return (s.allowKey false).take 1 t

def flowEntry (s : Scan) : Option Scan := do
  return ((← s.dropKey).allowKey true).take 1 .flowEntry

def blockEntry (s : Scan) : Option Scan := do
  if !s.inFlow && !s.keyAllowed then none
  let s := s.rollHere .blockSequence
  return ((← s.dropKey).allowKey true).take 1 .blockEntry

def explicitKey (s : Scan) : Option Scan := do
  if !s.inFlow && !s.keyAllowed then none
  let s := s.rollHere .blockMapping
  return ((← s.dropKey).allowKey (!s.inFlow)).take 1 .key

/-- At a colon the pending key turns out to be one, and a mapping may turn out to begin with it. -/
def mappingValue (s : Scan) : Option Scan := do
  match s.currentKey.filter (fun k => !s.stale k) with
  | some k =>
    let s := { s with tokens := s.tokens.insertIdxIfInBounds k.token .key }
    let s := s.roll k.column k.token .blockMapping
    return ((s.setKey none).allowKey false).take 1 .value
  | none =>
    if !s.inFlow && !s.keyAllowed then none
    let s := s.rollHere .blockMapping
    return (s.allowKey (!s.inFlow)).take 1 .value

def marker (s : Scan) (t : Token) : Option Scan := do
  return ((← s.unrollAll.dropKey).allowKey false).take 3 t

def isWordChar (c : Char) : Bool :=
  c.isAlphanum || c = '_' || c = '-'

/-- An anchor or an alias: its name and one of the characters that may follow. -/
def reference (s : Scan) (t : String → Token) : Option Scan := do
  let s := (← s.beginKey).allowKey false
  let cs := s.cursor.rest.drop 1
  let name := cs.takeWhile isWordChar
  let rest := cs.dropWhile isWordChar
  let ends := endsWord rest || rest.head?.any ['?', ':', ',', ']', '\x7d', '%', '@', '\x60'].contains
  if name.isEmpty || !ends then none
  return (s.moveTo rest).emit (t (String.ofList name))

/-! ## Tags and directives -/

open Text Text.Parser

def isTagChar (verbatim : Bool) (c : Char) : Bool :=
  isWordChar c || ";/?:@&=+$.!~*'()".toList.contains c || (verbatim && [',', '[', ']'].contains c)

/-- An octet that is written as a percent sign and two digits. -/
def escapedOctet : Parser UInt8 := do
  char '%'
  return (valueOf 16 (← exactly (isDigitIn 16) 2)).toUInt8

/-- How many octets follow a first one in the encoding of a character. -/
def trailing? (first : UInt8) : Option Nat :=
  if first < 0x80 then some 0
  else if 0xc0 ≤ first && first < 0xe0 then some 1
  else if 0xe0 ≤ first && first < 0xf0 then some 2
  else if 0xf0 ≤ first && first < 0xf8 then some 3
  else none

/-- An octet after the first one. -/
def trailingOctet : Parser UInt8 := do
  let o ← escapedOctet
  if 0x80 ≤ o && o < 0xc0 then return o else failure

/-- The escaped octets of a character: as many as the first announces.  What they encode is not looked at. -/
def escapedCharacter : Parser Tag := do
  let first ← escapedOctet
  match trailing? first with
  | some n => return first :: (← times trailingOctet n)
  | none => failure

/-- The octets that are written for a tag. -/
def tagOctets (verbatim : Bool) : Parser Tag := do
  let piece := escapedCharacter <|> (do return [(← satisfy (isTagChar verbatim)).toNat.toUInt8])
  return (← many piece).flatten

/-- A tag ends before its first octet zero. -/
def cut (octets : Tag) : Tag :=
  octets.takeWhile (· ≠ 0)

/-- A tag for which something is written. -/
def writtenTag (verbatim : Bool) : Parser Tag := do
  let octets ← tagOctets verbatim
  if octets.isEmpty then failure else return cut octets


/-- A handle between exclamation marks. -/
def namedHandle : Parser String := do
  char '!'
  let name ← takeWhile isWordChar
  char '!'
  return String.ofList ('!' :: (name ++ ['!']))

/-- A tag as its handle and its suffix; a verbatim tag and a lone exclamation mark have no handle. -/
def tagParts : Parser (String × Tag) := do
  match ← optional (word ['!', '<']) with
  | some _ =>
    let t ← writtenTag true
    char '>'
    return ("", t)
  | none =>
    match ← optional namedHandle with
    | some h => return (h, ← writtenTag false)
    | none =>
      char '!'
      let t := cut (← tagOctets false)
      return if t.isEmpty then ("", Tag.ofText "!") else ("!", t)

def tag (s : Scan) : Option Scan := do
  let s := (← s.beginKey).allowKey false
  let ((handle, suffix), rest) ← tagParts s.cursor.rest
  if !endsWord rest && !(s.inFlow && rest.head? = some ',') then none
  return (s.moveTo rest).emit (.tag handle suffix)

def blanks : Parser Unit := do
  let _ ← takeWhile1 isBlank

/-- A number of at most nine digits. -/
def versionNumber : Parser Nat := do
  let digits ← takeWhile1 Char.isDigit
  if digits.length ≤ 9 then return valueOf 10 digits else failure

def versionDirective : Parser Token := do
  word "YAML".toList
  blanks
  let major ← versionNumber
  char '.'
  return .version major (← versionNumber)

/-- Succeeds, taking nothing, where a word ends. -/
def wordEnd : Parser Unit := fun cs =>
  if endsWord cs then some ((), cs) else none

def shorthandDirective : Parser Token := do
  word "TAG".toList
  blanks
  let handle ← namedHandle <|> (do char '!'; return "!")
  blanks
  let expansion ← writtenTag true
  wordEnd
  return .shorthand handle expansion

def directiveLine : Parser Token := do
  char '%'
  let t ← versionDirective <|> shorthandDirective
  let _ ← takeWhile isBlank
  let _ ← optional (do char '#'; let _ ← takeWhile (fun c => !isBreak c))
  (do let _ ← oneBreak) <|> end?
  return t

def directive (s : Scan) : Option Scan := do
  let s := (← s.unrollAll.dropKey).allowKey false
  let (t, rest) ← directiveLine s.cursor.rest
  return (s.moveTo rest).emit t

/-! ## Scalars -/

def quoted (s : Scan) (p : Parser String) : Option Scan := do
  let s := (← s.beginKey).allowKey false
  let (t, rest) ← p s.cursor.rest
  return (s.moveTo rest).emit (.scalar .quoted t)

def blockScalar (s : Scan) (style : Style) : Option Scan := do
  let s := (← s.dropKey).allowKey true
  let (t, rest) ← block (style = .literal) s.indents.head? (s.cursor.rest.drop 1)
  return (s.moveTo rest).emit (.scalar style t)

/-- A plain scalar.  If a line break follows it, a key may begin after it. -/
def plain (s : Scan) : Option Scan := do
  let s := (← s.beginKey).allowKey false
  let (t, broken, rest) ← plainFrom s.inFlow (s.indents.head?.elim 0 (· + 1)) s.cursor.rest
  return ((s.moveTo rest).emit (.scalar .plain (String.ofList t))).allowKey broken

/-- The characters that may not begin a plain scalar. -/
def isIndicator (c : Char) : Bool :=
  "-?:,[]#&*!|>'\"%@\x60\x7b\x7d".toList.contains c

/-- Takes the next token, which begins with `c`, and whatever follows from it. -/
def step (s : Scan) (c : Char) (cs : List Char) : Option Scan :=
  if s.cursor.column = 0 ∧ c = '%' then s.directive
  else if s.cursor.column = 0 ∧ atMarker (c :: cs) then s.marker (if c = '-' then .documentStart else .documentEnd)
  else match c with
    | '[' => s.openFlow .flowSequence
    | '\x7b' => s.openFlow .flowMapping
    | ']' => s.closeFlow .flowSequenceEnd
    | '\x7d' => s.closeFlow .flowMappingEnd
    | ',' => s.flowEntry
    | '*' => s.reference .alias
    | '&' => s.reference .anchor
    | '!' => s.tag
    | '\'' => s.quoted singleQuoted
    | '"' => s.quoted doubleQuoted
    | _ =>
      if c = '-' ∧ endsWord cs then s.blockEntry
      else if c = '?' ∧ (s.inFlow ∨ endsWord cs) then s.explicitKey
      else if c = ':' ∧ (s.inFlow ∨ endsWord cs) then s.mappingValue
      else if c = '|' ∧ !s.inFlow then s.blockScalar .literal
      else if c = '>' ∧ !s.inFlow then s.blockScalar .folded
      else if isBlank c then none
      else if !isIndicator c ∨ c = '-' ∨ (!s.inFlow ∧ (c = '?' ∨ c = ':')) then s.plain
      else none

/-- The characters that are looked at before a token is taken. -/
def tokenLookahead : Nat := 4

/-- Whether the part of the text that can be read goes on for so many characters, unless it ends there. -/
def reaches (s : Scan) (length : Nat) : Bool :=
  s.whole || length ≤ s.cursor.rest.length

/-- No required key was left behind. -/
def checked (s : Scan) : Option Scan :=
  if s.keys.reduceOption.any (fun k => k.required && s.stale k) then none else some s

/-- The end of the text ends its last line and everything but flow collections. -/
def finish (s : Scan) : Option Scan := do
  let s := { s with cursor := s.cursor.endLine }
  return (← (← s.unrollAll.dropKey).checked).emit .streamEnd

/-- The tokens of the rest of the text, or those before the place where it breaks the rules. -/
def run (s : Scan) : List Token :=
  let t := s.toNextToken
  if !t.reaches tokenLookahead then s.settled
  else match t.cursor.rest with
    | [] => match t.finish with
      | some t => t.tokens.toList
      | none => s.settled
    | c :: cs =>
      match ((t.unroll t.cursor.column).step c cs).bind checked with
      | none => s.settled
      | some t => if t.cursor.rest.length < s.cursor.rest.length ∧ t.reaches 1 then run t else s.settled
termination_by s.cursor.rest.length

end Scan

/-- The tokens of a text.  They end in `streamEnd` unless it breaks the rules. -/
def Token.ofText (text : String) : List Token :=
  let (cs, whole) := readable [] [] 0 text.toList
  Scan.run { cursor := { rest := cs }, whole := whole }

end Yaml
end GroundPlanner
