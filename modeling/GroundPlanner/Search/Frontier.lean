import Std.Data.TreeMap
import Std.Data.TreeSet
/-!
# Closed states and open costs

`ClosedSet` holds the states that were taken off the open list.  `OpenCosts` holds the cheapest cost at
which each state was offered to it, for the suppression of duplicates.
-/
namespace GroundPlanner

structure ClosedSet (α : Type) [Ord α] where
  states : Std.TreeSet α

namespace ClosedSet

variable {α : Type} [Ord α]

def empty : ClosedSet α :=
  ⟨∅⟩

def contains (c : ClosedSet α) (s : α) : Bool :=
  c.states.contains s

def insert (c : ClosedSet α) (s : α) : ClosedSet α :=
  ⟨c.states.insert s⟩

def size (c : ClosedSet α) : Nat :=
  c.states.size

def isEmpty (c : ClosedSet α) : Bool :=
  c.states.isEmpty

end ClosedSet

structure OpenCosts (α : Type) [Ord α] where
  costs : Std.TreeMap α Nat

namespace OpenCosts

variable {α : Type} [Ord α]

def empty : OpenCosts α :=
  ⟨∅⟩

def known? (o : OpenCosts α) (s : α) : Option Nat :=
  o.costs.get? s

/-- Whether `cost` is below everything offered for `s` before, and the costs after the offer. -/
def offer (o : OpenCosts α) (s : α) (cost : Nat) : Bool × OpenCosts α :=
  match o.known? s with
  | some known => if known ≤ cost then (false, o) else (true, ⟨o.costs.insert s cost⟩)
  | none => (true, ⟨o.costs.insert s cost⟩)

end OpenCosts
end GroundPlanner
