import GroundPlanner.Search.Heap
import GroundPlanner.Search.TotalOrder
/-!
# The open list

A priority queue: the lowest priority comes first, of those the lowest estimate, of those the one pushed
first.  Priorities and estimates are 64-bit patterns of doubles, compared in the total order.
-/
namespace GroundPlanner

structure OpenEntry (α : Type) where
  priority : UInt64
  estimate : UInt64
  serial : Nat
  item : α
deriving Repr

namespace OpenEntry

variable {α : Type}

/-- The order of leaving the list; no two entries of one list have the same serial number. -/
def le (a b : OpenEntry α) : Bool :=
  if a.priority ≠ b.priority then a.priority < b.priority
  else if a.estimate ≠ b.estimate then a.estimate < b.estimate
  else a.serial ≤ b.serial

end OpenEntry

structure OpenList (α : Type) where
  heap : Heap (OpenEntry α)
  size : Nat
  /-- The number of entries pushed so far. -/
  pushed : Nat
  /-- The largest size the list ever had. -/
  highWater : Nat

namespace OpenList

variable {α : Type}

def empty : OpenList α :=
  ⟨.leaf, 0, 0, 0⟩

def isEmpty (l : OpenList α) : Bool :=
  l.size == 0

/-- Pushes an item under the patterns of its priority and its estimate. -/
def push (l : OpenList α) (item : α) (priority estimate : UInt64) : OpenList α where
  heap := l.heap.insert OpenEntry.le ⟨orderKey priority, orderKey estimate, l.pushed, item⟩
  size := l.size + 1
  pushed := l.pushed + 1
  highWater := max l.highWater (l.size + 1)

/-- The first item in the order of leaving. -/
def pop (l : OpenList α) : Option (α × OpenList α) :=
  match l.heap.pop OpenEntry.le with
  | none => none
  | some (e, h) => some (e.item, { l with heap := h, size := l.size - 1 })

/-- At most `n` items in the order of leaving. -/
def take : Nat → OpenList α → List α × OpenList α
  | 0, l => ([], l)
  | n + 1, l =>
    match l.pop with
    | none => ([], l)
    | some (x, l') =>
      let (xs, rest) := take n l'
      (x :: xs, rest)

/-- All items in the order of leaving. -/
def drain (l : OpenList α) : List α × OpenList α :=
  l.take l.size

end OpenList
end GroundPlanner
