import GroundPlanner.Duration
/-!
# When to stop

A termination is asked again and again whether to stop.  It sees how many steps were made and keeps a
state of its own, so that each answer may depend on the earlier questions; nothing else is known of it.

The limits are the usual ones.  A search of pure functions reads no clock: to it no time passes, and a time
limit is reached only if it is zero.
-/
namespace GroundPlanner

structure Termination where
  Memory : Type
  start : Memory
  /-- The answer after a number of steps, and what to remember of the question. -/
  check : Memory → Nat → Bool × Memory
  /-- The wall-clock limit that it enforces, if any. -/
  timeLimit : Option Duration

/-- One reason to stop. -/
inductive Limit where
  /-- After this many steps. -/
  | steps (n : Nat)
  /-- After this much time. -/
  | time (d : Duration)
  /-- After this many questions. -/
  | checks (n : Nat)
deriving DecidableEq, Repr

namespace Limit

/-- Whether a limit that was asked `asked` times before is reached after `made` steps. -/
def reached : Limit → Nat → Nat → Bool
  | .steps n, _, made => n ≤ made
  | .time d, _, _ => d.isZero
  | .checks n, asked, _ => n ≤ asked

def timeLimit : Limit → Option Duration
  | .time d => some d
  | _ => none

/-- Asks the limits from left to right up to the first that is reached; counts the questions of each. -/
def any : List Limit → List Nat → Nat → Bool × List Nat
  | l :: ls, asked :: rest, made =>
    if l.reached asked made then (true, (asked + 1) :: rest)
    else
      let (stop, rest') := any ls rest made
      (stop, (asked + 1) :: rest')
  | _, asked, _ => (false, asked)

/-- The tightest time limit. -/
def tightest (ls : List Limit) : Option Duration :=
  (ls.filterMap timeLimit).foldl (fun best d => some (match best with
    | none => d
    | some b => b.min d)) none

end Limit

namespace Termination

/-- Stops when the first of the limits is reached. -/
def ofLimits (ls : List Limit) : Termination where
  Memory := List Nat
  start := ls.map (fun _ => 0)
  check := Limit.any ls
  timeLimit := Limit.tightest ls

/-- Never stops. -/
def never : Termination where
  Memory := Unit
  start := ()
  check := fun _ _ => (false, ())
  timeLimit := none

/-- Stops after a number of steps. -/
def afterSteps (n : Nat) : Termination :=
  ofLimits [.steps n]

/-- Stops after a time. -/
def afterTime (d : Duration) : Termination :=
  ofLimits [.time d]

end Termination
end GroundPlanner
