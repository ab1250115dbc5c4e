import GroundPlanner.Text.Unseen
/-!
# Quoted texts

A text between quotes, in which quotes, backslashes and the usual control characters are escaped by a
backslash, and the other characters that cannot be seen on their own are written by their codes.
-/
namespace GroundPlanner
namespace Text

def escapeChar (c : Char) : List Char :=
  match c with
  | '\x00' => ['\\', '0']
  | '\t' => ['\\', 't']
  | '\r' => ['\\', 'r']
  | '\n' => ['\\', 'n']
  | '"' => ['\\', '"']
  | '\\' => ['\\', '\\']
  | c =>
    if 0x20 ≤ c.toNat && c.toNat < 0x7f then [c]
    else if isUnseen c then ['\\', 'u', '\x7b'] ++ Nat.toDigits 16 c.toNat ++ ['\x7d']
    else [c]

/-- The text between quotes. -/
def quote (s : String) : String :=
  String.ofList ('"' :: s.toList.flatMap escapeChar ++ ['"'])

/-- The text without the quotes at its two ends. -/
def trimQuotes (s : String) : String :=
  let back := (s.toList.dropWhile (· == '"')).reverse
  String.ofList (back.dropWhile (· == '"')).reverse

end Text
end GroundPlanner
