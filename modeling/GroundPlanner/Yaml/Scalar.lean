import GroundPlanner.Text.Digits
import GroundPlanner.Text.Parser
import GroundPlanner.Yaml.Cursor
/-!
# Scalars in a YAML text

How plain, quoted and block scalars are read: where they end, how lines are folded, what is escaped.
-/
namespace GroundPlanner
namespace Yaml

open Text Text.Parser

/-! ## Gaps between the words of a scalar -/

/-- Blanks and line breaks between two words. -/
structure Gap where
  /-- The blanks before the first break, latest first. -/
  blanks : List Char := []
  broken : Bool := false
  first : Option Char := none
  /-- The breaks after the first one, latest first. -/
  more : List Char := []
  column : Nat := 0
  /-- The least column of a tab that follows a break. -/
  tab : Option Nat := none

namespace Gap

def addBlank (g : Gap) (c : Char) : Gap :=
  if g.broken then
    { g with
      column := g.column + 1
      tab := if c = '\t' then some (min g.column (g.tab.getD g.column)) else g.tab }
  else { g with blanks := c :: g.blanks }

def addBreak (g : Gap) (c : Char) : Gap :=
  if g.broken then { g with more := normalBreak c :: g.more, column := 0 }
  else { g with broken := true, first := some (normalBreak c), column := 0 }

/-- Extends a gap as far as it goes. -/
def extend (g : Gap) : List Char → Gap × List Char
  | [] => (g, [])
  | '\r' :: '\n' :: cs => extend (g.addBreak '\n') cs
  | c :: cs =>
    if isBlank c then extend (g.addBlank c) cs
    else if isBreak c then extend (g.addBreak c) cs
    else (g, c :: cs)

/-- What a gap contributes to a scalar: a lone line feed folds to a space, and of several the first is
dropped. -/
def text (g : Gap) : List Char :=
  match g.broken, g.first with
  | false, _ => g.blanks.reverse
  | true, some '\n' => if g.more.isEmpty then [' '] else g.more.reverse
  | true, some c => c :: g.more.reverse
  | true, none => g.more.reverse

/-- The next word stands at the beginning of a line and is a marker between documents. -/
def meetsMarker (g : Gap) (rest : List Char) : Bool :=
  g.broken && g.column == 0 && atMarker rest

end Gap

/-! ## Quoted scalars -/

/-- A character by its code in so many hexadecimal digits. -/
def codePoint (digits : Nat) : Parser (List Char) := do
  let n := valueOf 16 (← exactly (isDigitIn 16) digits)
  if n.isValidChar then return [Char.ofNat n] else failure

def escaped : Parser (List Char) := do
  char '\\'
  match ← satisfy (fun _ => true) with
  | '0' => return ['\x00']
  | 'a' => return ['\x07']
  | 'b' => return ['\x08']
  | 't' | '\t' => return ['\t']
  | 'n' => return ['\n']
  | 'v' => return ['\x0b']
  | 'f' => return ['\x0c']
  | 'r' => return ['\r']
  | 'e' => return ['\x1b']
  | ' ' => return [' ']
  | '"' => return ['"']
  | '/' => return ['/']
  | '\\' => return ['\\']
  | 'N' => return ['\u0085']
  | '_' => return ['\u00a0']
  | 'L' => return ['\u2028']
  | 'P' => return ['\u2029']
  | 'x' => codePoint 2
  | 'u' => codePoint 4
  | 'U' => codePoint 8
  | _ => failure

/-- A gap inside a quoted scalar, which must not run into a marker between documents. -/
def gapFrom (g : Gap) : Parser (List Char) := fun cs =>
  let (g, rest) := g.extend cs
  if g.meetsMarker rest then none else some (g.text, rest)

def oneBreak : Parser Char := do
  (do word ['\r', '\n']; return '\n') <|> satisfy isBreak

/-- An escaped line break joins two lines without a space. -/
def continuation : Parser (List Char) := do
  char '\\'
  let _ ← oneBreak
  gapFrom { broken := true }

def gap : Parser (List Char) := do
  let g ← (do return ({} : Gap).addBlank (← satisfy isBlank)) <|> (do return ({} : Gap).addBreak (← oneBreak))
  gapFrom g

/-- A run of characters that are none of the given ones, blanks, or breaks. -/
def wordWithout (special : List Char) : Parser (List Char) :=
  takeWhile1 (fun c => !isBlank c && !isBreak c && !special.contains c)

def singleQuoted : Parser String := do
  char '\''
  let parts ← many (wordWithout ['\''] <|> (do word ['\'', '\'']; return ['\'']) <|> gap)
  char '\''
  return String.ofList parts.flatten

def doubleQuoted : Parser String := do
  char '"'
  let parts ← many (wordWithout ['"', '\\'] <|> continuation <|> escaped <|> gap)
  char '"'
  return String.ofList parts.flatten

/-! ## Plain scalars -/

/-- The characters that end a plain scalar inside a flow collection. -/
def isFlowMark (c : Char) : Bool :=
  [',', '[', ']', '\x7b', '\x7d'].contains c

/-- A word of a plain scalar.  It fails at a colon that a flow collection does not admit there. -/
def plainWord (flow : Bool) : List Char → Option (List Char × List Char)
  | [] => some ([], [])
  | c :: cs =>
    if isBlank c || isBreak c then some ([], c :: cs)
    else if flow && c = ':' && (match cs with
      | d :: _ => d = '?' || isFlowMark d
      | [] => false) then none
    else if (c = ':' && endsWord cs) || (flow && isFlowMark c) then some ([], c :: cs)
    else (plainWord flow cs).map (fun (w, rest) => (c :: w, rest))

/-- The text of a plain scalar, whether a line break follows it, and the rest of the text.

`indent` is the least column at which a further line may go on in block context. -/
def plainFrom (flow : Bool) (indent : Nat) (cs : List Char) : Option (List Char × Bool × List Char) := do
  let (w, rest) ← plainWord flow cs
  let (g, next) := ({} : Gap).extend rest
  if g.broken && g.tab.any (· < indent) then none
  else if (!flow && g.broken && g.column < indent) || g.meetsMarker next || next.head? = some '#' ||
      rest.length = next.length then
    return (w, g.broken, next)
  else if next.length < cs.length then
    let (more, broken, last) ← plainFrom flow indent next
    if more.isEmpty then return (w, g.broken, next) else return (w ++ g.text ++ more, broken, last)
  else none
termination_by cs.length

/-! ## Block scalars -/

inductive Chomping where
  | strip
  | clip
  | keep
deriving DecidableEq

/-- The indicators after the bar or the angle: how to end the scalar, and its indentation below its parent.
The rest of the line may hold a comment. -/
def blockHeader : Parser (Chomping × Option Nat) := do
  let chomping : Parser Chomping :=
    (do char '-'; return .strip) <|> (do char '+'; return .keep)
  let increment : Parser Nat := do
    return digitValue (← satisfy (fun c => c.isDigit && c != '0'))
  let marks ←
    (do let c ← chomping; return (c, ← optional increment)) <|>
    (do let n ← increment; return ((← optional chomping).getD .clip, some n)) <|>
    pure (.clip, none)
  let _ ← takeWhile isBlank
  let _ ← optional (do char '#'; let _ ← takeWhile (fun c => !isBreak c))
  (do let _ ← oneBreak) <|> end?
  return marks

/-- Lines without contents: their breaks, the greatest and the last column reached, and the rest.  With an
indentation, up to so many spaces are taken on a line; without one, all.  A tab must not stand where a space
of the indentation is expected. -/
def blockGap (indent : Option Nat) (column widest : Nat) (breaks : List Char) :
    List Char → Option (List Char × Nat × Nat × List Char)
  | [] => some (breaks.reverse, max widest column, column, [])
  | '\r' :: '\n' :: cs => blockGap indent 0 (max widest column) ('\n' :: breaks) cs
  | c :: cs =>
    let awaited := indent.all (column < ·)
    if c = ' ' && awaited then blockGap indent (column + 1) widest breaks cs
    else if c = '\t' && awaited then none
    else if isBreak c then blockGap indent 0 (max widest column) (normalBreak c :: breaks) cs
    else some (breaks.reverse, max widest column, column, c :: cs)

/-- The lines of a block scalar at one indentation.

`first` is the break that ended the line before and `more` are the breaks of the empty lines after it; they
are joined to the next line, or left over at the end.  In a folded scalar a lone break between two lines that
do not begin with a blank becomes a space. -/
def blockLines (literal : Bool) (indent : Nat) (afterBlank : Bool) (first : Option Char) (more : List Char)
    (column : Nat) (cs : List Char) : Option (List Char × Option Char × List Char × List Char) :=
  if column != indent || cs.isEmpty then some ([], first, more, cs)
  else
    let blank := (cs.head?.map isBlank).getD false
    let joint :=
      if !literal && first = some '\n' && !afterBlank && !blank then (if more.isEmpty then [' '] else more)
      else first.toList ++ more
    let line := cs.takeWhile (fun c => !isBreak c)
    let (ending, rest) : Option Char × List Char := match cs.dropWhile (fun c => !isBreak c) with
      | [] => (none, [])
      | '\r' :: '\n' :: r => (some '\n', r)
      | c :: r => (some (normalBreak c), r)
    match blockGap indent 0 0 [] rest with
    | none => none
    | some (breaks, _, column, next) =>
      if next.length < cs.length then
        (blockLines literal indent blank ending breaks column next).map
          (fun (text, left) => (joint ++ line ++ text, left))
      else none
termination_by cs.length

/-- A block scalar after its bar or angle, in a collection that begins at column `parent`. -/
def block (literal : Bool) (parent : Option Nat) (cs : List Char) : Option (String × List Char) := do
  let ((chomping, increment), cs) ← blockHeader cs
  let given := increment.map (parent.getD 0 + ·)
  let (breaks, widest, column, cs) ← blockGap given 0 0 [] cs
  let indent := given.getD (max widest (parent.elim 1 (· + 1)))
  let (text, first, more, rest) ← blockLines literal indent false none breaks column cs
  let tail := match chomping with
    | .strip => []
    | .clip => first.toList
    | .keep => first.toList ++ more
  return (String.ofList (text ++ tail), rest)

end Yaml
end GroundPlanner
