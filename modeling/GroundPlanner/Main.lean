import GroundPlanner.CommandLine.Run
/-!
# The program

The host on which the planner runs as a program: files on disk, the clock of the machine, and a terminal that
shows the log records its filter lets through.
-/
namespace GroundPlanner

/-- What a run on a terminal carries along. -/
structure Terminal where
  filter : Console.Filter
  /-- When the last search that was shown began, in nanoseconds. -/
  searchStart : IO.Ref (Option Nat)

abbrev Terminal.Session := ReaderT Terminal IO

namespace Terminal

/-- The cause that a code of the operating system stands for.  Some calls give the code with a minus sign. -/
def faultOfCode (code : UInt32) (details : String) : FileFault :=
  match if code < 0x80000000 then code.toNat else (-code).toNat with
  | 2 => .notFound
  | 20 => .notDirectory
  | 21 => .isDirectory
  | 36 => .nameTooLong
  | n => .other (details.capitalize ++ " (os error " ++ Text.ofNat n ++ ")")

/-- The cause of a failed call. -/
def fault (e : IO.Error) : FileFault :=
  match e with
  | .noFileOrDirectory _ code details | .inappropriateType _ code details | .permissionDenied _ code details
  | .invalidArgument _ code details | .resourceExhausted _ code details | .noSuchThing _ code details
  | .otherError code details => faultOfCode code details
  | e => .other (toString e)

def readText (path : String) : IO (Except FileFault String) := do
  if path.toList.contains '\x00' then return .error .nulInName
  match ← (IO.FS.readBinFile path).toBaseIO with
  | .error e => return .error (fault e)
  | .ok octets =>
    match String.fromUTF8? octets with
    | some s => return .ok s
    | none => return .error .notText

def writeText (path text : String) : IO (Except FileFault Unit) := do
  if path.toList.contains '\x00' then return .error .nulInName
  return (← (IO.FS.writeFile path text).toBaseIO).mapError fault

def print (text : String) : IO Unit := do
  let out ← IO.getStdout
  out.putStr text
  out.flush

/-- Shows a record with the time since the last search began; the beginning of a search starts the count. -/
def display (t : Terminal) (r : Log.Record) : IO Unit := do
  if t.filter.shows r && (Console.render .zero r).isSome then
    let now ← IO.monoNanosNow
    if Console.isSearchStart r then t.searchStart.set (some now)
    let began := (← t.searchStart.get).getD now
    if let some line := Console.render ⟨now - began⟩ r then
      print (line ++ "\n")

instance : Host Session where
  readText path := Terminal.readText path
  writeText path text := Terminal.writeText path text
  now := do return ⟨← IO.monoNanosNow⟩
  print text := Terminal.print text
  log record := do (← read).display record

end Terminal

/-- The filter that the environment asks for, or else the default. -/
def environmentFilter : IO Console.Filter := do
  return ((← IO.getEnv "RUST_LOG").bind Console.Filter.parse?).getD Console.Filter.default

/-- Runs the planner on a command line, and gives the exit code. -/
def program (words : List String) : IO Nat := do
  match CommandLine.read words with
  | .error f =>
    if f.exitCode = 0 then IO.println f.message else IO.eprintln ("error: " ++ f.message)
    return f.exitCode
  | .ok arguments =>
    let terminal : Terminal := ⟨← environmentFilter, ← IO.mkRef none⟩
    let outcome ← (CommandLine.session (m := Terminal.Session) arguments).run terminal
    if let .error e := outcome then IO.eprintln ("Error: " ++ e.message)
    return CommandLine.exitCode outcome

end GroundPlanner

def main (args : List String) : IO UInt32 := do
  return (← GroundPlanner.program args).toUInt32
