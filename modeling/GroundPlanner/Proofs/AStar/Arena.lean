import GroundPlanner.Proofs.AStar.Turn
import GroundPlanner.Proofs.Walk
/-!
# The nodes of a search

Every node is the root or one applicable action away from an earlier node (`Arena`).  So following parents from a node
gives a walk from the initial state to its state, as long as the node's cost (`Arena.trace`), and `Node.pathTo` finds
that walk (`Trace.pathTo_eq`).
-/
namespace GroundPlanner

namespace Node

/-- The actions `is` lead from the root to node `i`, by the origins of the nodes. -/
inductive Trace (nodes : Array Node) : Nat → List Nat → Prop where
  | root {i : Nat} {n : Node} (hn : nodes[i]? = some n) (ho : n.origin = none) : Trace nodes i []
  | child {i : Nat} {n : Node} {o : Origin} {is : List Nat} (hn : nodes[i]? = some n) (ho : n.origin = some o)
      (ht : Trace nodes o.parent is) : Trace nodes i (is ++ [o.action])

theorem Trace.walkBack_eq {nodes : Array Node} {i : Nat} {is : List Nat} (h : Trace nodes i is) {k : Nat}
    (hk : is.length < k) (tail : List Nat) : walkBack nodes k i tail = is ++ tail := by
  induction h generalizing k tail with
  | root hn ho =>
    obtain _ | k := k
    · exact absurd hk (Nat.not_lt_zero _)
    · simp only [walkBack, hn, ho, List.nil_append]
  | child hn ho _ ih =>
    rw [List.length_append, List.length_singleton] at hk
    obtain _ | k := k
    · exact absurd hk (Nat.not_lt_zero _)
    · simp only [walkBack, hn, ho]
      rw [ih (by omega), List.append_assoc, List.singleton_append]

theorem Trace.mono {nodes nodes' : Array Node} {i : Nat} {is : List Nat} (h : Trace nodes i is)
    (hx : ∀ (j : Nat) (m : Node), nodes[j]? = some m → nodes'[j]? = some m) : Trace nodes' i is := by
  induction h with
  | root hn ho => exact .root (hx _ _ hn) ho
  | child hn ho _ ih => exact .child (hx _ _ hn) ho ih

theorem Trace.pathTo_eq {nodes : Array Node} {i : Nat} {is : List Nat} (h : Trace nodes i is)
    (hlen : is.length < nodes.size) : pathTo nodes i = is := by
  rw [pathTo, h.walkBack_eq hlen, List.append_nil]

end Node

namespace AStar
namespace Setup

/-- **Where a node comes from**: the root, or an applicable action in an earlier node. -/
inductive Linked (s : Setup) (nodes : Array Node) (i : Nat) : Node → Prop where
  | root : Linked s nodes i (.root s.problem.init (s.estimate s.problem.init))
  | child {j k : Nat} {m : Node} {a : Action} (hj : j < i) (hm : nodes[j]? = some m)
      (ha : s.problem.actions[k]? = some a) (happ : a.applicable m.state = true) :
      Linked s nodes i (.child (a.successor m.state) j k (m.cost + 1) (s.estimate (a.successor m.state)))

def Arena (s : Setup) (nodes : Array Node) : Prop :=
  ∀ (i : Nat) (n : Node), nodes[i]? = some n → s.Linked nodes i n

variable {s : Setup} {p q : Progress} {nodes : Array Node}

theorem Linked.push {i : Nat} {n m : Node} (h : s.Linked nodes i n) : s.Linked (nodes.push m) i n := by
  cases h with
  | root => exact .root
  | child hj hm ha happ => exact .child hj (getElem?_push_of_some hm) ha happ

theorem Arena.push {n : Node} (h : s.Arena nodes) (hn : s.Linked nodes nodes.size n) : s.Arena (nodes.push n) := by
  intro i m hm
  rcases eq_or_of_getElem?_push hm with ⟨rfl, rfl⟩ | hm
  · exact hn.push
  · exact (h i m hm).push

theorem Arena.generated {i k : Nat} {t : State} {n : Node} (h : s.Arena p.nodes) (hn : p.nodes[i]? = some n)
    (hx : (k, t) ∈ s.problem.successors n.state) (hg : s.Generated i (n.cost + 1) p (k, t) q) : s.Arena q.nodes := by
  obtain ⟨a, ha, happ, rfl⟩ := Problem.mem_successors.1 hx
  cases hg with
  | closed => exact h
  | known => exact h
  | pushed => exact h.push (.child (Array.getElem?_eq_some_iff.1 hn).1 hn ha happ)

theorem Arena.foldl {i : Nat} {n : Node} (h : s.Arena p.nodes) (hn : p.nodes[i]? = some n) :
    s.Arena ((s.problem.successors n.state).foldl (s.generate i (n.cost + 1)) p).nodes := by
  have hboth : p.Extends ((s.problem.successors n.state).foldl (s.generate i (n.cost + 1)) p) ∧
      s.Arena ((s.problem.successors n.state).foldl (s.generate i (n.cost + 1)) p).nodes := by
    refine List.foldlRecOn (motive := fun q : Progress => p.Extends q ∧ s.Arena q.nodes) _ _ ⟨.refl p, h⟩ ?_
    rintro q ⟨hext, hq⟩ ⟨k, t⟩ hx
    have hg := s.generated i (n.cost + 1) q (k, t)
    exact ⟨hext.trans hg.extends, hq.generated (hext.nodes i n hn) hx hg⟩
  exact hboth.2

theorem Arena.estimate_eq {i : Nat} {n : Node} (h : s.Arena nodes) (hn : nodes[i]? = some n) :
    n.estimate = s.estimate n.state := by
  cases h i n hn <;> rfl

/-- **Parents lead back to the root along a walk** whose length is the cost of the node. -/
theorem Arena.trace (h : s.Arena nodes) {i : Nat} {n : Node} (hn : nodes[i]? = some n) :
    ∃ is, Node.Trace nodes i is ∧ s.problem.Walk s.problem.init is n.state ∧ is.length = n.cost ∧ is.length ≤ i := by
  induction i using Nat.strongRecOn generalizing n with
  | ind i ih =>
    cases h i n hn with
    | root => exact ⟨[], .root hn rfl, .nil _, rfl, Nat.zero_le _⟩
    | child hj hm ha happ =>
      obtain ⟨is, htr, hw, hlen, hle⟩ := ih _ hj hm
      refine ⟨_, .child hn rfl htr, hw.concat ha happ, ?_, ?_⟩
      · rw [List.length_append, List.length_singleton, hlen]
        rfl
      · rw [List.length_append, List.length_singleton]
        exact Nat.lt_of_le_of_lt hle hj

theorem Arena.reachable (h : s.Arena nodes) {i : Nat} {n : Node} (hn : nodes[i]? = some n) :
    s.problem.Reachable n.state := by
  obtain ⟨is, -, hw, -⟩ := h.trace hn
  exact ⟨is, hw⟩

theorem Arena.pathTo (h : s.Arena nodes) {i : Nat} {n : Node} (hn : nodes[i]? = some n) :
    s.problem.Walk s.problem.init (Node.pathTo nodes i) n.state ∧ (Node.pathTo nodes i).length = n.cost := by
  obtain ⟨is, htr, hw, hlen, hle⟩ := h.trace hn
  rw [htr.pathTo_eq (Nat.lt_of_le_of_lt hle (Array.getElem?_eq_some_iff.1 hn).1)]
  exact ⟨hw, hlen⟩

end Setup
end AStar
end GroundPlanner
