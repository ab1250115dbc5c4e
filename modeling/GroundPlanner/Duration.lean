import GroundPlanner.Decimal.Fixed
/-!
# Durations

A duration is a whole number of nanoseconds, at most `2^64 - 1` seconds and 999999999 nanoseconds.  Sums
beyond that do not exist (`add?`).
-/
namespace GroundPlanner

structure Duration where
  nanos : Nat
deriving DecidableEq, Repr

namespace Duration

def perSecond : Nat :=
  1000000000

def zero : Duration :=
  ⟨0⟩

def ofSeconds (n : Nat) : Duration :=
  ⟨n * perSecond⟩

def ofMillis (n : Nat) : Duration :=
  ⟨n * 1000000⟩

def ofParts (seconds nanos : Nat) : Duration :=
  ⟨seconds * perSecond + nanos⟩

def isZero (d : Duration) : Bool :=
  d.nanos == 0

/-- Whole seconds. -/
def seconds (d : Duration) : Nat :=
  d.nanos / perSecond

/-- Nanoseconds beyond the whole seconds. -/
def subsecond (d : Duration) : Nat :=
  d.nanos % perSecond

def millis (d : Duration) : Nat :=
  d.nanos / 1000000

/-- The longest duration. -/
def longest : Duration :=
  ⟨UInt64.size * perSecond - 1⟩

/-- The sum, unless it is longer than the longest duration. -/
def add? (a b : Duration) : Option Duration :=
  if a.nanos + b.nanos ≤ longest.nanos then some ⟨a.nanos + b.nanos⟩ else none

/-- The distance of two durations. -/
def distance (a b : Duration) : Duration :=
  ⟨if a.nanos ≤ b.nanos then b.nanos - a.nanos else a.nanos - b.nanos⟩

def min (a b : Duration) : Duration :=
  if a.nanos ≤ b.nanos then a else b

/-- Seconds as a double: the whole seconds plus the rest, each rounded. -/
def toFloat (d : Duration) : Float :=
  Float.ofNat d.seconds + Float.ofNat d.subsecond / 1000000000.0

/-- How many events per second `count` events in this time are, rounded down; none if no time passed. -/
def rate (d : Duration) (count : Nat) : Nat :=
  let secs := d.toFloat
  if 0.0 < secs then (Float.ofNat count / secs).toUInt64.toNat else 0

end Duration
end GroundPlanner
