/-!
# Places in a YAML text

The classes of characters that the layout of a YAML text depends on, the part of a text that can be read,
and a cursor that knows its line and column.
-/
namespace GroundPlanner
namespace Yaml

/-- The characters that may stand in a text at all. -/
def isAllowed (c : Char) : Bool :=
  let n := c.toNat
  n == 0x09 || n == 0x0a || n == 0x0d || (0x20 ≤ n && n ≤ 0x7e) || n == 0x85 ||
  (0xa0 ≤ n && n ≤ 0xfffd) || 0x10000 ≤ n

/-- The octets that are looked at together for characters that must not stand in a text. -/
def windowSize : Nat := 16384

/-- The part of a text that can be read, and whether it is the whole: everything before the window in which a
character is not allowed.  Both `settled`, the windows before the present one, and `fresh`, of which `used`
octets of the present one are taken, are in reverse. -/
def readable (settled fresh : List Char) (used : Nat) : List Char → List Char × Bool
  | [] => ((fresh ++ settled).reverse, true)
  | c :: cs =>
    if used + c.utf8Size ≤ windowSize then
      if isAllowed c then readable settled (c :: fresh) (used + c.utf8Size) cs else (settled.reverse, false)
    else
      if isAllowed c then readable (fresh ++ settled) [c] c.utf8Size cs else ((fresh ++ settled).reverse, false)

/-- Line breaks: line feed, carriage return, next line, line separator, paragraph separator. -/
def isBreak (c : Char) : Bool :=
  c = '\n' || c = '\r' || c = '\u0085' || c = '\u2028' || c = '\u2029'

def isBlank (c : Char) : Bool :=
  c = ' ' || c = '\t'

/-- A break as it is read into a scalar: a separator stays, every other becomes a line feed. -/
def normalBreak (c : Char) : Char :=
  if c = '\u2028' || c = '\u2029' then c else '\n'

/-- Whether a word ends here: at a blank, a break, or the end of the text. -/
def endsWord : List Char → Bool
  | [] => true
  | c :: _ => isBlank c || isBreak c

/-- Whether here stands a marker between documents, which counts at the beginning of a line. -/
def atMarker : List Char → Bool
  | '-' :: '-' :: '-' :: cs => endsWord cs
  | '.' :: '.' :: '.' :: cs => endsWord cs
  | _ => false

/-- The rest of a text and the place where it begins. -/
structure Cursor where
  rest : List Char
  /-- The number of octets before this place. -/
  index : Nat := 0
  line : Nat := 0
  column : Nat := 0

namespace Cursor

/-- Moves over characters.  A carriage return and the line feed after it are one break. -/
def pass (c : Cursor) : List Char → Cursor
  | [] => c
  | '\r' :: '\n' :: cs => pass { c with index := c.index + 2, line := c.line + 1, column := 0 } cs
  | x :: cs =>
    let index := c.index + x.utf8Size
    if isBreak x then pass { c with index := index, line := c.line + 1, column := 0 } cs
    else pass { c with index := index, column := c.column + 1 } cs

/-- Moves to a later place, which is given by the text that is left there. -/
def moveTo (c : Cursor) (rest : List Char) : Cursor :=
  { c.pass (c.rest.take (c.rest.length - rest.length)) with rest := rest }

/-- The end of the text as the end of a line. -/
def endLine (c : Cursor) : Cursor :=
  if c.column = 0 then c else { c with line := c.line + 1, column := 0 }

end Cursor
end Yaml
end GroundPlanner
