import GroundPlanner.Decimal.Read
import GroundPlanner.Text.Parser
import GroundPlanner.Toml.Basic
/-!
# Reading TOML

The grammar of TOML 1.0 as parsers on characters.  Values may nest `maxDepth` deep; a dotted key may have
as many parts.  `Toml.parse?` gives the table that a text describes.
-/
namespace GroundPlanner
namespace Toml

open Text Text.Parser

/-- The depth that neither nested values nor dotted keys may reach. -/
def maxDepth : Nat := 80

/-! ## Blanks, comments, line ends -/

def isSpace (c : Char) : Bool :=
  c = ' ' || c = '\t'

/-- The characters that may stand in comments: all but control characters, and the tab. -/
def isPrintable (c : Char) : Bool :=
  c = '\t' || (0x20 ≤ c.toNat && c.toNat != 0x7f)

def spaces : Parser Unit := do
  let _ ← takeWhile isSpace

def lineBreak : Parser Unit :=
  word ['\n'] <|> word ['\r', '\n']

def comment : Parser Unit := do
  char '#'
  let _ ← takeWhile isPrintable

/-- Blanks, comments and line ends. -/
def trivia : Parser Unit := do
  let _ ← many ((do let _ ← takeWhile1 isSpace) <|> lineBreak <|> comment)

/-- What may follow on the line of a header or an assignment. -/
def lineEnd : Parser Unit := do
  spaces
  let _ ← optional comment
  lineBreak <|> end?

/-! ## Strings -/

/-- The character with a code that is written in so many hexadecimal digits. -/
def codePoint (digits : Nat) : Parser (List Char) := do
  let n := valueOf 16 (← exactly (isDigitIn 16) digits)
  if n.isValidChar then return [Char.ofNat n] else failure

/-- What follows the backslash of an escape. -/
def escaped : Parser (List Char) := do
  match ← satisfy (fun _ => true) with
  | 'b' => return ['\x08']
  | 't' => return ['\t']
  | 'n' => return ['\n']
  | 'f' => return ['\x0c']
  | 'r' => return ['\r']
  | '"' => return ['"']
  | '\\' => return ['\\']
  | 'u' => codePoint 4
  | 'U' => codePoint 8
  | _ => failure

def isBasic (c : Char) : Bool :=
  isPrintable c && c != '"' && c != '\\'

def isLiteral (c : Char) : Bool :=
  isPrintable c && c != '\''

def basicString : Parser String := do
  char '"'
  let parts ← many (takeWhile1 isBasic <|> (do char '\\'; escaped))
  char '"'
  return String.ofList parts.flatten

def literalString : Parser String := do
  char '\''
  let cs ← takeWhile isLiteral
  char '\''
  return String.ofList cs

/-- One or two quotes, which do not end a string of several lines. -/
def fewQuotes (quote : Char) : Parser (List Char) := do
  let run ← takeWhile1 (· == quote)
  if run.length ≤ 2 then return run else failure

/-- Three quotes that end a string of several lines, and up to two before them that belong to it. -/
def closingQuotes (quote : Char) : Parser (List Char) := do
  let run ← takeWhile (· == quote)
  if 3 ≤ run.length ∧ run.length ≤ 5 then return run.drop 3 else failure

/-- A string between triple quotes, made of the given pieces.  A line break at its beginning does not
count, and every other is read as a single line feed. -/
def multiline (quote : Char) (piece : Parser (List Char)) : Parser String := do
  word [quote, quote, quote]
  let _ ← optional lineBreak
  let parts ← many (piece <|> (do lineBreak; return ['\n']) <|> fewQuotes quote)
  let last ← closingQuotes quote
  return String.ofList (parts.flatten ++ last)

/-- A backslash at the end of a line takes away the line break and all blanks and line breaks after it. -/
def continuation : Parser (List Char) := do
  char '\\'
  spaces
  lineBreak
  let _ ← many ((do let _ ← takeWhile1 isSpace) <|> lineBreak)
  return []

def multilineBasic : Parser String :=
  multiline '"' (takeWhile1 isBasic <|> continuation <|> (do char '\\'; escaped))

def multilineLiteral : Parser String :=
  multiline '\'' (takeWhile1 isLiteral)

def string : Parser String :=
  multilineBasic <|> basicString <|> multilineLiteral <|> literalString

/-! ## Keys -/

def isBare (c : Char) : Bool :=
  c.isAlphanum || c = '_' || c = '-'

def simpleKey : Parser String :=
  basicString <|> literalString <|> (do return String.ofList (← takeWhile1 isBare))

/-- The parts of a key, with a point between neighbours. -/
def key : Parser (List String) := do
  let part : Parser String := do
    spaces
    let k ← simpleKey
    spaces
    return k
  let path ← separated (char '.') part
  if path.length < maxDepth then return path else failure

/-! ## Numbers and dates -/

/-- Digits that a single underscore may separate. -/
def digitRun (p : Char → Bool) : Parser (List Char) := do
  let d ← satisfy p
  return d :: (← many (satisfy p <|> (do char '_'; satisfy p)))

def sign : Parser (List Char) := do
  match ← optional (satisfy (fun c => c = '+' || c = '-')) with
  | some c => return [c]
  | none => return []

/-- An integer in base ten without leading zeros. -/
def decimalInteger : Parser (List Char) := do
  let s ← sign
  let ds ← (do lookahead ['0']; return [← satisfy Char.isDigit]) <|> digitRun Char.isDigit
  return s ++ ds

def fraction : Parser (List Char) := do
  char '.'
  return '.' :: (← digitRun Char.isDigit)

def exponent : Parser (List Char) := do
  let _ ← satisfy (fun c => c = 'e' || c = 'E')
  let s ← sign
  return 'e' :: (s ++ (← digitRun Char.isDigit))

/-- A number with a fraction or an exponent.  One that rounds to positive infinity is refused. -/
def decimalReal : Parser Value := do
  let whole ← decimalInteger
  let rest ← exponent <|> (do return (← fraction) ++ ((← optional exponent).getD []))
  match Decimal.parseChars? (whole ++ rest) with
  | some x => if x == 1.0 / 0.0 then failure else return .real x
  | none => failure

def namedReal : Parser Value := do
  let s ← sign
  let magnitude ←
    (do word ['i', 'n', 'f']; return (1.0 / 0.0 : Float)) <|>
    (do word ['n', 'a', 'n']; return (Float.ofBits 0x7ff8000000000000))
  return .real (if s = ['-'] then -magnitude else magnitude)

/-- An integer that is a signed word of 64 bits. -/
def word64 (n : Int) : Parser Value :=
  if Int64.minValue.toInt ≤ n ∧ n ≤ Int64.maxValue.toInt then return .integer n else failure

def basedInteger (mark : Char) (base : Nat) : Parser Value := do
  word ['0', mark]
  let ds ← digitRun (isDigitIn base)
  word64 (valueOf base ds)

def integer : Parser Value :=
  basedInteger 'x' 16 <|> basedInteger 'o' 8 <|> basedInteger 'b' 2 <|> (do
    match ← decimalInteger with
    | '-' :: ds => word64 (-(valueOf 10 ds : Int))
    | '+' :: ds => word64 (valueOf 10 ds)
    | ds => word64 (valueOf 10 ds))

/-- A number of so many digits that lies in the given range. -/
def bounded (digits low high : Nat) : Parser Nat := do
  let n := valueOf 10 (← exactly Char.isDigit digits)
  if low ≤ n ∧ n ≤ high then return n else failure

def daysIn (year month : Nat) : Nat :=
  if month = 2 then
    if year % 4 = 0 ∧ (year % 100 ≠ 0 ∨ year % 400 = 0) then 29 else 28
  else if month = 4 ∨ month = 6 ∨ month = 9 ∨ month = 11 then 30
  else 31

def calendarDay : Parser Unit := do
  let year ← bounded 4 0 9999
  char '-'
  let month ← bounded 2 1 12
  char '-'
  let _ ← bounded 2 1 (daysIn year month)

def timeOfDay : Parser Unit := do
  let _ ← bounded 2 0 23
  char ':'
  let _ ← bounded 2 0 59
  char ':'
  let _ ← bounded 2 0 60
  let _ ← optional (do char '.'; let _ ← takeWhile1 Char.isDigit)

def zone : Parser Unit :=
  (do let _ ← satisfy (fun c => c = 'Z' || c = 'z')) <|> (do
    let _ ← satisfy (fun c => c = '+' || c = '-')
    let _ ← bounded 2 0 23
    char ':'
    let _ ← bounded 2 0 59)

/-- A day, a time of day, or both with or without a zone. -/
def date : Parser Value := do
  (do
    calendarDay
    let _ ← optional (do
      let _ ← satisfy (fun c => c = 'T' || c = 't' || c = ' ')
      timeOfDay
      let _ ← optional zone)) <|> timeOfDay
  return .date

/-! ## Values -/

def flag : Parser Value :=
  (do word "true".toList; return .flag true) <|> (do word "false".toList; return .flag false)

/-- A value that is no collection. -/
def leaf : Parser Value :=
  (do return .text (← string)) <|> flag <|> date <|> decimalReal <|> namedReal <|> integer

/-- Values between brackets, over any number of lines; the last may be followed by a comma. -/
def array (value : Parser Value) : Parser Value := do
  char '['
  let item : Parser Value := do
    trivia
    let v ← value
    trivia
    return v
  let items ← optional (do
    let xs ← separated (char ',') item
    let _ ← optional (char ',')
    return xs)
  trivia
  char ']'
  return .array (items.getD [])

def assignment (value : Parser Value) : Parser Assignment := do
  let path ← key
  char '='
  spaces
  return ⟨path, ← value⟩

/-- Assignments between braces, on one line and without a comma after the last. -/
def inlineTable (value : Parser Value) : Parser Value := do
  char '\x7b'
  let item : Parser Assignment := do
    let a ← assignment value
    spaces
    return a
  let items ← optional (separated (char ',') item)
  spaces
  char '\x7d'
  match Entries.assignAll? [] (items.getD []) with
  | some es => return .table .inline es
  | none => failure

/-- A value with less than `depth` collections around its innermost part. -/
def value : Nat → Parser Value
  | 0 => leaf
  | depth + 1 => array (value depth) <|> inlineTable (value depth) <|> leaf

/-! ## Documents -/

def line : Parser Assignment := do
  trivia
  let a ← assignment (value (maxDepth - 1))
  lineEnd
  return a

def header : Parser (Bool × List String) := do
  trivia
  let doubled ← (do word ['[', '[']; return true) <|> (do char '['; return false)
  let path ← key
  char ']'
  if doubled then char ']'
  lineEnd
  return (doubled, path)

def readSection : Parser Section := do
  let (doubled, path) ← header
  return ⟨path, doubled, ← many line⟩

def document : Parser Document := do
  let _ ← optional (char '\ufeff')
  let top ← many line
  let sections ← many readSection
  trivia
  return ⟨top, sections⟩

/-- The table that a text describes. -/
def parse? (s : String) : Option Entries := do
  (← whole? document s).table?

end Toml
end GroundPlanner
