import GroundPlanner.Proofs.Search.Closed
import GroundPlanner.Proofs.Search.Queue
import GroundPlanner.Search.AStar
/-!
# What a turn does

Every case of a turn is said once: `Generated` lists what becomes of a successor, `Visited` what becomes of a node
taken off the open list, and `Progress.Extends` what handling successors leaves alone.  Later modules go through
these cases and unfold nothing.
-/
namespace GroundPlanner
namespace AStar

/-- The number of the node that was expanded, if the event is an expansion. -/
def Event.expansion? : Event → Option Nat
  | .expanded i .. => some i
  | .stale .. => none

namespace Progress

/-- The nodes expanded so far, latest first. -/
def expanded (p : Progress) : List Node :=
  p.events.filterMap (fun e => e.expansion?.bind (fun i => p.nodes[i]?))

/-- Leaves a node out whose state is closed. -/
def skip (p : Progress) (i : Nat) (n : Node) : Progress :=
  { p with
    stats := { p.stats with popped := p.stats.popped + 1, stalePops := p.stats.stalePops + 1 }
    events := .stale i n.cost :: p.events }

def finish (p : Progress) (n : Node) : Progress :=
  { p with
    closed := p.closed.insert n.state
    stats := { p.stats with popped := p.stats.popped + 1, goalCost := some n.cost } }

/-- Closes the state of a node that is about to be expanded into `k` successors. -/
def settle (p : Progress) (i : Nat) (n : Node) (k : Nat) : Progress :=
  { p with
    closed := p.closed.insert n.state
    stats := { p.stats with popped := p.stats.popped + 1, explored := p.stats.explored + 1 }
    events := .expanded i n.cost n.estimate k :: p.events }

/-- A progress with nodes and entries added; what was expanded and closed is the same. -/
structure Extends (p q : Progress) : Prop where
  nodes : ∀ (j : Nat) (m : Node), p.nodes[j]? = some m → q.nodes[j]? = some m
  entries : ∀ e ∈ p.openList.entries, e ∈ q.openList.entries
  closed_eq : q.closed = p.closed
  events_eq : q.events = p.events
  explored_eq : q.stats.explored = p.stats.explored

theorem Extends.refl (p : Progress) : p.Extends p :=
  ⟨fun _ _ h => h, fun _ h => h, rfl, rfl, rfl⟩

theorem Extends.trans {p q r : Progress} (h : p.Extends q) (h' : q.Extends r) : p.Extends r where
  nodes j m hm := h'.nodes j m (h.nodes j m hm)
  entries e he := h'.entries e (h.entries e he)
  closed_eq := h'.closed_eq.trans h.closed_eq
  events_eq := h'.events_eq.trans h.events_eq
  explored_eq := h'.explored_eq.trans h.explored_eq

end Progress

namespace Setup

variable {s : Setup} {p q : Progress}

def entry (s : Setup) (i : Nat) (n : Node) : OpenEntry Nat :=
  ⟨orderKey (n.priority s.search.weight).toBits, orderKey n.estimate.toBits, i, i⟩

theorem getElem?_push_of_some {nodes : Array Node} {n m : Node} {j : Nat} (h : nodes[j]? = some m) :
    (nodes.push n)[j]? = some m := by
  obtain ⟨hj, rfl⟩ := Array.getElem?_eq_some_iff.1 h
  rw [Array.getElem?_push_lt hj]

theorem eq_or_of_getElem?_push {nodes : Array Node} {n m : Node} {j : Nat} (h : (nodes.push n)[j]? = some m) :
    (j = nodes.size ∧ m = n) ∨ nodes[j]? = some m := by
  rw [Array.getElem?_push] at h
  split at h
  · rename_i hj
    exact .inl ⟨hj, (Option.some.inj h).symm⟩
  · exact .inr h

/-- Putting a node on the open list adds to a progress, whatever becomes of the known costs and the counters. -/
theorem extends_enqueue (s : Setup) (p : Progress) (n : Node) (costs : OpenCosts State) (stats : AStarStats)
    (h : stats.explored = p.stats.explored) :
    p.Extends (s.enqueue { p with openCosts := costs, stats := stats } n) where
  nodes _ _ hm := getElem?_push_of_some hm
  entries _ he := OpenList.mem_entries_push.2 (.inr he)
  closed_eq := rfl
  events_eq := rfl
  explored_eq := h

/-- **What becomes of a successor** reached at `cost` from node `i`: its state is closed, or known at no greater cost,
or a new node is put on the open list. -/
inductive Generated (s : Setup) (i cost : Nat) (p : Progress) (x : Nat × State) : Progress → Prop where
  | closed (hc : p.closed.contains x.2 = true) :
    Generated s i cost p x { p with stats := { p.stats with closedPrunes := p.stats.closedPrunes + 1 } }
  | known {c : Nat} (hc : p.closed.contains x.2 = false) (hd : s.search.suppressDuplicates = true)
      (hk : p.openCosts.known? x.2 = some c) (hle : c ≤ cost) :
    Generated s i cost p x { p with stats := { p.stats with openPrunes := p.stats.openPrunes + 1 } }
  | pushed {costs : OpenCosts State} (hc : p.closed.contains x.2 = false) (ho : s.offer p x.2 cost = (true, costs)) :
    Generated s i cost p x (s.enqueue
      { p with openCosts := costs, stats := { p.stats with generated := p.stats.generated + 1 } }
      (.child x.2 i x.1 cost (s.estimate x.2)))

theorem generated (s : Setup) (i cost : Nat) (p : Progress) (x : Nat × State) :
    s.Generated i cost p x (s.generate i cost p x) := by
  obtain ⟨k, t⟩ := x
  unfold generate
  simp only
  split
  · rename_i hc
    exact .closed hc
  · rename_i hc
    rw [Bool.not_eq_true] at hc
    split
    · rename_i costs ho
      unfold offer at ho
      split at ho
      · rename_i hd
        obtain ⟨rfl, c, hk, hle⟩ := OpenCosts.offer_refused ho
        exact .known hc hd hk hle
      · simp at ho
    · rename_i costs ho
      exact .pushed hc ho

theorem known?_of_offer {t : State} {cost : Nat} {costs : OpenCosts State} (hd : s.search.suppressDuplicates = true)
    (ho : s.offer p t cost = (true, costs)) (u : State) :
    costs.known? u = if u = t then some cost else p.openCosts.known? u := by
  rw [offer, if_pos hd] at ho
  exact OpenCosts.offer_accepted ho u

theorem Generated.extends {i cost : Nat} {x : Nat × State} (h : s.Generated i cost p x q) : p.Extends q := by
  cases h with
  | closed => exact ⟨fun _ _ h => h, fun _ h => h, rfl, rfl, rfl⟩
  | known => exact ⟨fun _ _ h => h, fun _ h => h, rfl, rfl, rfl⟩
  | pushed => exact s.extends_enqueue p _ _ _ rfl

theorem extends_foldl (s : Setup) (i cost : Nat) (p : Progress) (l : List (Nat × State)) :
    p.Extends (l.foldl (s.generate i cost) p) :=
  List.foldlRecOn l _ (.refl p) (fun q hq x _ => hq.trans (s.generated i cost q x).extends)

/-- **What becomes of a node taken off the open list**: it is stale, or a goal, or it is expanded. -/
inductive Visited (s : Setup) (p : Progress) (i : Nat) (n : Node) : Turn → Prop where
  | stale (hc : p.closed.contains n.state = true) : Visited s p i n (.more (p.skip i n))
  | goal (hc : p.closed.contains n.state = false) (hg : s.problem.isGoal n.state = true) :
    Visited s p i n (.done (.succeeded ⟨Node.pathTo p.nodes i⟩) (p.finish n))
  | expanded (hc : p.closed.contains n.state = false) (hg : s.problem.isGoal n.state = false) :
    Visited s p i n (.more ((s.problem.successors n.state).foldl (s.generate i (n.cost + 1))
      (p.settle i n (s.problem.successors n.state).length)))

theorem visit_stale {i : Nat} {n : Node} (hc : p.closed.contains n.state = true) :
    s.visit p i n = .more (p.skip i n) := by
  unfold visit
  simp only [hc, if_true]
  rfl

theorem visit_goal {i : Nat} {n : Node} (hc : p.closed.contains n.state = false)
    (hg : s.problem.isGoal n.state = true) :
    s.visit p i n = .done (.succeeded ⟨Node.pathTo p.nodes i⟩) (p.finish n) := by
  unfold visit
  simp only [hc, hg, Bool.false_eq_true, if_false, if_true]
  rfl

theorem visit_expanded {i : Nat} {n : Node} (hc : p.closed.contains n.state = false)
    (hg : s.problem.isGoal n.state = false) :
    s.visit p i n = .more ((s.problem.successors n.state).foldl (s.generate i (n.cost + 1))
      (p.settle i n (s.problem.successors n.state).length)) := by
  unfold visit
  simp only [hc, hg, Bool.false_eq_true, if_false]
  rfl

theorem visited (s : Setup) (p : Progress) (i : Nat) (n : Node) : s.Visited p i n (s.visit p i n) := by
  cases hc : p.closed.contains n.state with
  | true => exact visit_stale hc ▸ .stale hc
  | false =>
    cases hg : s.problem.isGoal n.state with
    | true => exact visit_goal hc hg ▸ .goal hc hg
    | false => exact visit_expanded hc hg ▸ .expanded hc hg

/-- **How the open list stands to the nodes**: it is sound, numbers its entries like the nodes, and holds entries of
nodes only. -/
structure Queue (s : Setup) (nodes : Array Node) (l : OpenList Nat) : Prop where
  sound : l.Sound
  pushed_eq : l.pushed = nodes.size
  entries : ∀ e ∈ l.entries, ∃ n, nodes[e.item]? = some n ∧ e = s.entry e.item n

theorem Queue.enqueue {nodes : Array Node} {l : OpenList Nat} (hq : s.Queue nodes l) (n : Node) :
    s.Queue (nodes.push n) (l.push nodes.size (n.priority s.search.weight).toBits n.estimate.toBits) where
  sound := hq.sound.push _ _ _
  pushed_eq := by
    rw [Array.size_push, ← hq.pushed_eq]
    rfl
  entries e he := by
    rcases OpenList.mem_entries_push.1 he with rfl | he
    · refine ⟨n, Array.getElem?_push_size, ?_⟩
      simp only [OpenList.newEntry, entry, hq.pushed_eq]
    · obtain ⟨m, hm, hem⟩ := hq.entries e he
      exact ⟨m, getElem?_push_of_some hm, hem⟩

theorem Queue.generated {i cost : Nat} {x : Nat × State} (hq : s.Queue p.nodes p.openList)
    (h : s.Generated i cost p x q) : s.Queue q.nodes q.openList := by
  cases h with
  | closed => exact hq
  | known => exact hq
  | pushed => exact hq.enqueue _

theorem Queue.foldl {i cost : Nat} (hq : s.Queue p.nodes p.openList) (l : List (Nat × State)) :
    s.Queue (l.foldl (s.generate i cost) p).nodes (l.foldl (s.generate i cost) p).openList :=
  List.foldlRecOn (motive := fun q : Progress => s.Queue q.nodes q.openList) l _ hq
    (fun _ hq _ _ => hq.generated (s.generated _ _ _ _))

theorem Queue.popped {nodes : Array Node} {l l' : OpenList Nat} {e : OpenEntry Nat} (hq : s.Queue nodes l)
    (h : l.Popped e l') : s.Queue nodes l' :=
  ⟨h.sound, h.pushed_eq.trans hq.pushed_eq, fun e' he' => hq.entries e' (h.mem_of_mem he')⟩

theorem Queue.nodup_items {nodes : Array Node} {l : OpenList Nat} (hq : s.Queue nodes l) : l.items.Nodup := by
  have hserial : l.items = l.entries.map OpenEntry.serial := by
    refine List.map_congr_left (fun e he => ?_)
    obtain ⟨n, -, hen⟩ := hq.entries e he
    rw [hen]
    rfl
  rw [hserial]
  exact hq.sound.distinct

theorem Queue.mem_items {nodes : Array Node} {l : OpenList Nat} (hq : s.Queue nodes l) {i : Nat} :
    i ∈ l.items ↔ ∃ n, nodes[i]? = some n ∧ s.entry i n ∈ l.entries := by
  constructor
  · intro hi
    obtain ⟨e, he, rfl⟩ := List.mem_map.1 hi
    obtain ⟨n, hn, hen⟩ := hq.entries e he
    exact ⟨n, hn, hen ▸ he⟩
  · rintro ⟨n, -, he⟩
    exact List.mem_map.2 ⟨_, he, rfl⟩

/-- **The open list is empty, or its first entry is that of a node, which is visited.** -/
theorem Queue.advance (hq : s.Queue p.nodes p.openList) :
    (p.openList.entries = [] ∧ s.advance p = .done .exhausted p) ∨
    ∃ i n rest, p.nodes[i]? = some n ∧ p.openList.Popped (s.entry i n) rest ∧ s.Queue p.nodes rest ∧
      s.advance p = s.visit { p with openList := rest } i n := by
  unfold Setup.advance
  cases hp : p.openList.pop with
  | none => exact .inl ⟨OpenList.pop_eq_none_iff.1 hp, rfl⟩
  | some x =>
    obtain ⟨i, rest⟩ := x
    obtain ⟨e, rfl, hpop⟩ := hq.sound.pop hp
    obtain ⟨n, hn, he⟩ := hq.entries e hpop.mem
    refine .inr ⟨e.item, n, rest, hn, he ▸ hpop, hq.popped hpop, ?_⟩
    simp only [hn]

/-- **What a turn does that does not end the search**: the first node is stale, or it is expanded. -/
inductive Moved (s : Setup) (p : Progress) : Progress → Prop where
  | stale {i : Nat} {n : Node} {rest : OpenList Nat} (hn : p.nodes[i]? = some n)
      (hpop : p.openList.Popped (s.entry i n) rest) (hq : s.Queue p.nodes rest)
      (hc : p.closed.contains n.state = true) : Moved s p (Progress.skip { p with openList := rest } i n)
  | expanded {i : Nat} {n : Node} {rest : OpenList Nat} (hn : p.nodes[i]? = some n)
      (hpop : p.openList.Popped (s.entry i n) rest) (hq : s.Queue p.nodes rest)
      (hc : p.closed.contains n.state = false) (hg : s.problem.isGoal n.state = false) :
    Moved s p ((s.problem.successors n.state).foldl (s.generate i (n.cost + 1))
      (Progress.settle { p with openList := rest } i n (s.problem.successors n.state).length))

/-- **How a last turn ends a search**: no entry is left, or a goal is taken off the open list. -/
inductive Finished (s : Setup) (p : Progress) : SearchOutcome → Progress → Prop where
  | exhausted (he : p.openList.entries = []) : Finished s p .exhausted p
  | goal {i : Nat} {n : Node} {rest : OpenList Nat} (hn : p.nodes[i]? = some n)
      (hpop : p.openList.Popped (s.entry i n) rest) (hc : p.closed.contains n.state = false)
      (hg : s.problem.isGoal n.state = true) :
    Finished s p (.succeeded ⟨Node.pathTo p.nodes i⟩) (Progress.finish { p with openList := rest } n)

theorem Queue.moved (hq : s.Queue p.nodes p.openList) (h : s.advance p = .more q) : s.Moved p q := by
  rcases hq.advance with ⟨-, hadv⟩ | ⟨i, n, rest, hn, hpop, hrest, hadv⟩
  · rw [hadv] at h
    cases h
  · have hvis := s.visited { p with openList := rest } i n
    rw [← hadv, h] at hvis
    cases hvis with
    | stale hc => exact .stale hn hpop hrest hc
    | expanded hc hg => exact .expanded hn hpop hrest hc hg

theorem Queue.finished {o : SearchOutcome} (hq : s.Queue p.nodes p.openList) (h : s.advance p = .done o q) :
    s.Finished p o q := by
  rcases hq.advance with ⟨hnil, hadv⟩ | ⟨i, n, rest, hn, hpop, -, hadv⟩
  · rw [hadv] at h
    cases h
    exact .exhausted hnil
  · have hvis := s.visited { p with openList := rest } i n
    rw [← hadv, h] at hvis
    cases hvis with
    | goal hc hg => exact .goal hn hpop hc hg

theorem Finished.nodes_eq {o : SearchOutcome} (h : s.Finished p o q) : q.nodes = p.nodes := by
  cases h <;> rfl

theorem Finished.expanded_eq {o : SearchOutcome} (h : s.Finished p o q) : q.expanded = p.expanded := by
  cases h <;> rfl

theorem Finished.explored_eq {o : SearchOutcome} (h : s.Finished p o q) : q.stats.explored = p.stats.explored := by
  cases h <;> rfl

theorem Moved.nodes (h : s.Moved p q) {j : Nat} {m : Node} (hm : p.nodes[j]? = some m) : q.nodes[j]? = some m := by
  cases h with
  | stale => exact hm
  | expanded => exact (s.extends_foldl _ _ _ _).nodes j m hm

end Setup
end AStar
end GroundPlanner
