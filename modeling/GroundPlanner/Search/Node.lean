import GroundPlanner.State
/-!
# Search nodes

A node is a state together with how it was reached: the number of its parent, the action taken there, and
the number of actions from the root.  Nodes are numbered in the order of their making, so a parent's number
is below its child's, and following parents from a node (`pathTo`) leads to the root.
-/
namespace GroundPlanner

/-- The step that made a node. -/
structure Origin where
  parent : Nat
  action : Nat
deriving DecidableEq, Repr

/-- A state and how it was reached.  A cost is a word of 32 bits, so paths are taken to be shorter than `2^32`; it is
not wrapped beyond. -/
structure Node where
  state : State
  origin : Option Origin
  cost : Nat
  estimate : Float

namespace Node

def root (state : State) (estimate : Float) : Node :=
  ⟨state, none, 0, estimate⟩

def child (state : State) (parent action cost : Nat) (estimate : Float) : Node :=
  ⟨state, some ⟨parent, action⟩, cost, estimate⟩

def isRoot (n : Node) : Bool :=
  n.origin.isNone

/-- Two nodes are the same search state if their states are; the way there does not count. -/
def sameState (a b : Node) : Bool :=
  a.state == b.state

/-- The weighted estimate plus the cost so far. -/
def priority (n : Node) (weight : Float) : Float :=
  weight * n.estimate + Float.ofNat n.cost

/-- The actions from the root to node `i`, in front of `tail`; parents are followed at most `n` times. -/
def walkBack (nodes : Array Node) : Nat → Nat → List Nat → List Nat
  | 0, _, tail => tail
  | n + 1, i, tail =>
    match nodes[i]? with
    | none => tail
    | some node =>
      match node.origin with
      | none => tail
      | some o => walkBack nodes n o.parent (o.action :: tail)

/-- The actions from the root to node `i`.  A path has fewer steps than there are nodes. -/
def pathTo (nodes : Array Node) (i : Nat) : List Nat :=
  walkBack nodes nodes.size i []

end Node
end GroundPlanner
