/-!
# Parsers on lists of characters

A parser takes a list of characters and gives a value and the characters that it left, or fails.  Failing
gives the characters back, so `p <|> q` tries `q` where `p` began.  `many` repeats a parser as long as it
succeeds and takes at least one character, and is total for that reason.
-/
namespace GroundPlanner
namespace Text

abbrev Parser := StateT (List Char) Option

namespace Parser

variable {α β : Type}

/-- The next character, if it passes the test. -/
def satisfy (p : Char → Bool) : Parser Char
  | c :: rest => if p c then some (c, rest) else none
  | [] => none

def char (c : Char) : Parser Unit := do
  let _ ← satisfy (· == c)

def end? : Parser Unit
  | [] => some ((), [])
  | _ :: _ => none

/-- Succeeds, taking nothing, where the rest begins with these characters. -/
def lookahead (word : List Char) : Parser Unit := fun cs =>
  if word.isPrefixOf cs then some ((), cs) else none

/-- Takes exactly these characters. -/
def word (w : List Char) : Parser Unit := fun cs =>
  if w.isPrefixOf cs then some ((), cs.drop w.length) else none

/-- The longest beginning whose characters all pass the test. -/
def takeWhile (p : Char → Bool) : Parser (List Char) := fun cs =>
  some (cs.takeWhile p, cs.dropWhile p)

def takeWhile1 (p : Char → Bool) : Parser (List Char) := do
  let c ← satisfy p
  return c :: (← takeWhile p)

/-- Exactly `n` characters that pass the test. -/
def exactly (p : Char → Bool) : Nat → Parser (List Char)
  | 0 => pure []
  | n + 1 => do
    let c ← satisfy p
    return c :: (← exactly p n)

/-- The values of `n` times `p`. -/
def times (p : Parser α) : Nat → Parser (List α)
  | 0 => pure []
  | n + 1 => do
    let a ← p
    return a :: (← times p n)

def manyFrom (p : Parser α) (cs : List Char) : List α × List Char :=
  match p cs with
  | none => ([], cs)
  | some (a, rest) =>
    if rest.length < cs.length then
      let (as, last) := manyFrom p rest
      (a :: as, last)
    else ([], cs)
termination_by cs.length

/-- The values of `p`, as often as it succeeds and takes something. -/
def many (p : Parser α) : Parser (List α) := fun cs =>
  some (manyFrom p cs)

def many1 (p : Parser α) : Parser (List α) := do
  let a ← p
  return a :: (← many p)

/-- One or more values of `p` with `separator` between neighbours. -/
def separated (separator : Parser β) (p : Parser α) : Parser (List α) := do
  let a ← p
  return a :: (← many (do let _ ← separator; p))

/-- The value of a parser that takes the whole text. -/
def whole? (p : Parser α) (s : String) : Option α :=
  match p s.toList with
  | some (a, []) => some a
  | _ => none

end Parser
end Text
end GroundPlanner
