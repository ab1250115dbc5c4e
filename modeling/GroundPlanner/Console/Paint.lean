import GroundPlanner.Text.Basic
/-!
# Coloured text

Colours and weight by the control sequences that terminals understand.  A painted text ends with the sequence
that gives back the default colour.
-/
namespace GroundPlanner
namespace Console

inductive Color where
  | yellow
  | white
  | brightBlack
  | brightRed
  | brightGreen
  | brightYellow
  | brightBlue
  | brightMagenta
  | brightCyan
  | brightWhite
deriving DecidableEq, Repr

namespace Color

def code : Color → Nat
  | yellow => 33
  | white => 37
  | brightBlack => 90
  | brightRed => 91
  | brightGreen => 92
  | brightYellow => 93
  | brightBlue => 94
  | brightMagenta => 95
  | brightCyan => 96
  | brightWhite => 97

/-- The text in a colour. -/
def paint (c : Color) (s : String) : String :=
  "\x1b[" ++ Text.ofNat c.code ++ "m" ++ s ++ "\x1b[39m"

end Color

/-- The text in bold. -/
def bold (s : String) : String :=
  "\x1b[1m" ++ s ++ "\x1b[0m"

/-- Puts a comma before every three digits that are followed by none or by such groups. -/
def groups : List Char → List Char
  | [] => []
  | d :: ds => if ds.length % 3 = 0 && !ds.isEmpty then d :: ',' :: groups ds else d :: groups ds

def grouped (n : Nat) : String :=
  String.ofList (groups (Nat.toDigits 10 n))

end Console
end GroundPlanner
