import GroundPlanner.Proofs.AStar.Priority
import Mathlib.Order.Interval.Set.Defs
import Mathlib.Order.Monotone.Basic
/-!
# Two searches side by side

One search is run with suppression of duplicates and without.  A map `φ` tells which node of the second run each node
of the first is (`Embeds`).  The second run has all of them open that the first has; whatever else it has open is of a
closed state or comes after an open node of its state that is no more expensive (`Aligned`).  So what it takes off its
list is the first node of both runs, or it is stale (`Aligned.first`).
-/
namespace GroundPlanner
namespace AStar

/-- The same search with suppression of duplicates, or without. -/
def suppressing (a : AStar) (b : Bool) : AStar :=
  { a with suppressDuplicates := b }

namespace Setup

def suppressing (s : Setup) (b : Bool) : Setup :=
  { s with search := s.search.suppressing b }

/-- **One node in two searches**: the same but for its number and that of its parent, and reached by the same
actions. -/
structure Twin (nodes nodes' : Array Node) (i j : Nat) (n m : Node) : Prop where
  found : nodes'[j]? = some m
  state_eq : m.state = n.state
  cost_eq : m.cost = n.cost
  estimate_eq : m.estimate = n.estimate
  path : ∃ is, Node.Trace nodes i is ∧ is.length ≤ i ∧ Node.Trace nodes' j is ∧ is.length ≤ j

/-- **Node `i` of the first run is node `φ i` of the second**, and the nodes are numbered in the same order. -/
structure Embeds (s : Setup) (φ : Nat → Nat) (nodes nodes' : Array Node) : Prop where
  estimate_eq : ∀ (i : Nat) (n : Node), nodes[i]? = some n → n.estimate = s.estimate n.state
  mono : StrictMonoOn φ (Set.Iio nodes.size)
  twin : ∀ (i : Nat) (n : Node), nodes[i]? = some n → ∃ m, Twin nodes nodes' i (φ i) n m

/-- Open node `k` of the second run is of no use: its state is closed, or a node that both runs have open is in front
of it, of its state and no more expensive. -/
inductive Shadowed (φ : Nat → Nat) (p q : Progress) (k : Nat) : Prop where
  | closed {m : Node} (hm : q.nodes[k]? = some m) (hc : p.closed.contains m.state = true) : Shadowed φ p q k
  | behind {i : Nat} {n m : Node} (hm : q.nodes[k]? = some m) (hi : i ∈ p.openList.items) (hn : p.nodes[i]? = some n)
      (hlt : φ i < k) (hstate : m.state = n.state) (hest : m.estimate = n.estimate) (hcost : n.cost ≤ m.cost) :
      Shadowed φ p q k

/-- How the counters of the runs compare. -/
structure Tally (p q : Progress) : Prop where
  explored_eq : q.stats.explored = p.stats.explored
  closedPrunes_eq : q.stats.closedPrunes = p.stats.closedPrunes
  goalCost_eq : q.stats.goalCost = p.stats.goalCost
  generated_eq : q.stats.generated = p.stats.generated + p.stats.openPrunes
  stalePops_le : p.stats.stalePops ≤ q.stats.stalePops
  highWater_le : p.openList.highWater ≤ q.openList.highWater

/-- **A run with suppression of duplicates, at `p`, beside one without, at `q`.** -/
structure Aligned (s : Setup) (φ : Nat → Nat) (p q : Progress) : Prop where
  queue_on : (s.suppressing true).Queue p.nodes p.openList
  queue_off : (s.suppressing false).Queue q.nodes q.openList
  known : (s.suppressing true).Known p
  closed_eq : q.closed = p.closed
  nodes : s.Embeds φ p.nodes q.nodes
  kept : ∀ i ∈ p.openList.items, φ i ∈ q.openList.items
  extra : ∀ k ∈ q.openList.items, (∃ i ∈ p.openList.items, φ i = k) ∨ Shadowed φ p q k
  tally : Tally p q

variable {s : Setup} {φ ψ : Nat → Nat} {p q p' q' : Progress} {nodes nodes' : Array Node} {i j k : Nat} {n m : Node}

namespace Twin

theorem mono {ext ext' : Array Node} (h : Twin nodes nodes' i j n m)
    (hx : ∀ (i : Nat) (n : Node), nodes[i]? = some n → ext[i]? = some n)
    (hx' : ∀ (i : Nat) (n : Node), nodes'[i]? = some n → ext'[i]? = some n) : Twin ext ext' i j n m := by
  obtain ⟨is, hon, hle, hoff, hle'⟩ := h.path
  exact ⟨hx' _ _ h.found, h.state_eq, h.cost_eq, h.estimate_eq, is, hon.mono hx, hle, hoff.mono hx', hle'⟩

theorem child (h : Twin nodes nodes' i j n m) (hn : nodes[i]? = some n) (a cost : Nat) (t : State) (e : Float) :
    Twin (nodes.push (.child t i a cost e)) (nodes'.push (.child t j a cost e)) nodes.size nodes'.size
      (.child t i a cost e) (.child t j a cost e) := by
  obtain ⟨is, hon, hle, hoff, hle'⟩ := h.path
  have hi : i < nodes.size := (Array.getElem?_eq_some_iff.1 hn).1
  have hj : j < nodes'.size := (Array.getElem?_eq_some_iff.1 h.found).1
  have hlen : (is ++ [a]).length = is.length + 1 := by rw [List.length_append, List.length_singleton]
  refine ⟨Array.getElem?_push_size, rfl, rfl, rfl, is ++ [a], ?_, by omega, ?_, by omega⟩
  · exact .child (o := ⟨i, a⟩) Array.getElem?_push_size rfl (hon.mono (fun _ _ => getElem?_push_of_some))
  · exact .child (o := ⟨j, a⟩) Array.getElem?_push_size rfl (hoff.mono (fun _ _ => getElem?_push_of_some))

theorem priority_eq (h : Twin nodes nodes' i j n m) (w : Float) : m.priority w = n.priority w := by
  unfold Node.priority
  rw [h.estimate_eq, h.cost_eq]

theorem pathTo_eq (h : Twin nodes nodes' i j n m) (hn : nodes[i]? = some n) :
    Node.pathTo nodes' j = Node.pathTo nodes i := by
  obtain ⟨is, hon, hle, hoff, hle'⟩ := h.path
  have hi : i < nodes.size := (Array.getElem?_eq_some_iff.1 hn).1
  have hj : j < nodes'.size := (Array.getElem?_eq_some_iff.1 h.found).1
  rw [hoff.pathTo_eq (Nat.lt_of_le_of_lt hle' hj), hon.pathTo_eq (Nat.lt_of_le_of_lt hle hi)]

end Twin

namespace Embeds

theorem lt_size (h : s.Embeds φ nodes nodes') (hi : i < nodes.size) : φ i < nodes'.size := by
  obtain ⟨m, ht⟩ := h.twin i _ (Array.getElem?_eq_getElem hi)
  exact (Array.getElem?_eq_some_iff.1 ht.found).1

theorem push_right (h : s.Embeds φ nodes nodes') (m : Node) : s.Embeds φ nodes (nodes'.push m) where
  estimate_eq := h.estimate_eq
  mono := h.mono
  twin i n hn := by
    obtain ⟨m, ht⟩ := h.twin i n hn
    exact ⟨m, ht.mono (fun _ _ h => h) (fun _ _ => getElem?_push_of_some)⟩

/-- A successor that both runs make is numbered next by both. -/
theorem push (h : s.Embeds φ nodes nodes') (hn : nodes[i]? = some n) (a cost : Nat) (t : State) :
    ∃ ψ : Nat → Nat, ψ nodes.size = nodes'.size ∧ (∀ j < nodes.size, ψ j = φ j) ∧
      s.Embeds ψ (nodes.push (.child t i a cost (s.estimate t)))
        (nodes'.push (.child t (φ i) a cost (s.estimate t))) := by
  obtain ⟨ψ, hnew, hψ⟩ : ∃ ψ : Nat → Nat, ψ nodes.size = nodes'.size ∧ ∀ j < nodes.size, ψ j = φ j :=
    ⟨Function.update φ nodes.size nodes'.size, Function.update_self _ _ _,
      fun j hj => Function.update_of_ne (Nat.ne_of_lt hj) _ _⟩
  refine ⟨ψ, hnew, hψ, fun j m hm => ?_, fun j hj l hl hjl => ?_, fun j m hm => ?_⟩
  · rcases eq_or_of_getElem?_push hm with ⟨rfl, rfl⟩ | hm
    · rfl
    · exact h.estimate_eq j m hm
  · simp only [Array.size_push, Set.mem_Iio] at hj hl
    rw [hψ j (by omega)]
    rcases Nat.lt_succ_iff_lt_or_eq.1 hl with hl | rfl
    · rw [hψ l hl]
      exact h.mono (Nat.lt_trans hjl hl) hl hjl
    · rw [hnew]
      exact h.lt_size hjl
  · rcases eq_or_of_getElem?_push hm with ⟨rfl, rfl⟩ | hm
    · obtain ⟨m, ht⟩ := h.twin i n hn
      exact ⟨_, hnew ▸ ht.child hn a cost t (s.estimate t)⟩
    · obtain ⟨m', ht⟩ := h.twin j m hm
      rw [hψ j (Array.getElem?_eq_some_iff.1 hm).1]
      exact ⟨m', ht.mono (fun _ _ => getElem?_push_of_some) (fun _ _ => getElem?_push_of_some)⟩

end Embeds

theorem items_subset (hx : p.Extends p') (hi : i ∈ p.openList.items) : i ∈ p'.openList.items := by
  obtain ⟨e, he, rfl⟩ := List.mem_map.1 hi
  exact List.mem_map.2 ⟨e, hx.entries e he, rfl⟩

theorem Shadowed.extends (h : Shadowed φ p q k) (hx : p.Extends p') (hx' : q.Extends q')
    (hψ : ∀ i < p.nodes.size, ψ i = φ i) : Shadowed ψ p' q' k := by
  cases h with
  | closed hm hc => exact .closed (hx'.nodes _ _ hm) (hx.closed_eq ▸ hc)
  | behind hm hi hn hlt hstate hest hcost =>
    rw [← hψ _ (Array.getElem?_eq_some_iff.1 hn).1] at hlt
    exact .behind (hx'.nodes _ _ hm) (items_subset hx hi) (hx.nodes _ _ hn) hlt hstate hest hcost

theorem Tally.popped {l l' : OpenList Nat} {e e' : OpenEntry Nat} (h : Tally p q) (hpop : p.openList.Popped e l)
    (hpop' : q.openList.Popped e' l') : l.highWater ≤ l'.highWater := by
  rw [hpop.highWater_eq, hpop'.highWater_eq]
  exact h.highWater_le

namespace Aligned

theorem lt_of_mem (ha : s.Aligned φ p q) (hi : i ∈ p.openList.items) : i < p.nodes.size := by
  obtain ⟨n, hn, -⟩ := ha.queue_on.mem_items.1 hi
  exact (Array.getElem?_eq_some_iff.1 hn).1

/-- Suppression never makes the open list longer. -/
theorem size_le (ha : s.Aligned φ p q) : p.openList.size ≤ q.openList.size := by
  have hnodup : (p.openList.items.map φ).Nodup :=
    ha.queue_on.nodup_items.map_on (fun i hi j hj h => ha.nodes.mono.injOn (ha.lt_of_mem hi) (ha.lt_of_mem hj) h)
  have hsub : p.openList.items.map φ ⊆ q.openList.items := by
    intro k hk
    obtain ⟨i, hi, rfl⟩ := List.mem_map.1 hk
    exact ha.kept i hi
  have hle := (hnodup.subperm hsub).length_le
  simp only [OpenList.items, List.length_map] at hle
  rwa [ha.queue_on.sound.size_eq, ha.queue_off.sound.size_eq]

/-- A successor that the first run suppresses comes after the node that it is suppressed for. -/
theorem suppress {cost a : Nat} {t : State} {costs : OpenCosts State} (ha : s.Aligned φ p q)
    (hc : p.closed.contains t = false) (hk : p.Covered t cost) :
    s.Aligned φ { p with stats := { p.stats with openPrunes := p.stats.openPrunes + 1 } }
      ((s.suppressing false).enqueue
        { q with openCosts := costs, stats := { q.stats with generated := q.stats.generated + 1 } }
        (.child t k a cost (s.estimate t))) := by
  have hx := (s.suppressing false).extends_enqueue q (.child t k a cost (s.estimate t)) costs
    { q.stats with generated := q.stats.generated + 1 } rfl
  refine {
    queue_on := ha.queue_on
    queue_off := ha.queue_off.enqueue _
    known := ha.known
    closed_eq := ha.closed_eq
    nodes := ha.nodes.push_right _
    kept := fun i hi => OpenList.mem_items_push.2 (.inr (ha.kept i hi))
    extra := fun j hj => ?_
    tally := { ha.tally with generated_eq := ?_, highWater_le := ?_ } }
  · rcases OpenList.mem_items_push.1 hj with rfl | hj
    · obtain ⟨e, he, n, hn, rfl, hle⟩ := hk.resolve_left (by rw [hc]; exact Bool.false_ne_true)
      have hlt := ha.nodes.lt_size (Array.getElem?_eq_some_iff.1 hn).1
      have hi : e.item ∈ p.openList.items := List.mem_map.2 ⟨e, he, rfl⟩
      exact .inr (.behind Array.getElem?_push_size hi hn hlt rfl (ha.nodes.estimate_eq _ n hn).symm hle)
    · have hsame : p.Extends { p with stats := { p.stats with openPrunes := p.stats.openPrunes + 1 } } :=
        ⟨fun _ _ h => h, fun _ h => h, rfl, rfl, rfl⟩
      exact (ha.extra j hj).imp id (fun h => h.extends hsame hx (fun _ _ => rfl))
  · have hgen := ha.tally.generated_eq
    change q.stats.generated + 1 = p.stats.generated + (p.stats.openPrunes + 1)
    omega
  · exact Nat.le_trans ha.tally.highWater_le (Nat.le_max_left _ _)

/-- A successor that both runs put on the open list is a node of both. -/
theorem enqueue {cost a : Nat} {t : State} {costs costs' : OpenCosts State} (ha : s.Aligned φ p q)
    (hn : p.nodes[i]? = some n)
    (hk : (s.suppressing true).Known ((s.suppressing true).enqueue
      { p with openCosts := costs, stats := { p.stats with generated := p.stats.generated + 1 } }
      (.child t i a cost (s.estimate t)))) :
    ∃ ψ, ψ i = φ i ∧ s.Aligned ψ
      ((s.suppressing true).enqueue
        { p with openCosts := costs, stats := { p.stats with generated := p.stats.generated + 1 } }
        (.child t i a cost (s.estimate t)))
      ((s.suppressing false).enqueue
        { q with openCosts := costs', stats := { q.stats with generated := q.stats.generated + 1 } }
        (.child t (φ i) a cost (s.estimate t))) := by
  have hx := (s.suppressing true).extends_enqueue p (.child t i a cost (s.estimate t)) costs
    { p.stats with generated := p.stats.generated + 1 } rfl
  have hx' := (s.suppressing false).extends_enqueue q (.child t (φ i) a cost (s.estimate t)) costs'
    { q.stats with generated := q.stats.generated + 1 } rfl
  obtain ⟨ψ, hnew, hψ, hnodes⟩ := ha.nodes.push hn a cost t
  refine ⟨ψ, hψ i (Array.getElem?_eq_some_iff.1 hn).1, {
    queue_on := ha.queue_on.enqueue _
    queue_off := ha.queue_off.enqueue _
    known := hk
    closed_eq := ha.closed_eq
    nodes := hnodes
    kept := fun j hj => ?_
    extra := fun l hl => ?_
    tally := { ha.tally with generated_eq := ?_, highWater_le := ?_ } }⟩
  · rcases OpenList.mem_items_push.1 hj with rfl | hj
    · exact OpenList.mem_items_push.2 (.inl hnew)
    · rw [hψ j (ha.lt_of_mem hj)]
      exact OpenList.mem_items_push.2 (.inr (ha.kept j hj))
  · rcases OpenList.mem_items_push.1 hl with rfl | hl
    · exact .inl ⟨p.nodes.size, OpenList.mem_items_push.2 (.inl rfl), hnew⟩
    · rcases ha.extra l hl with ⟨j, hj, rfl⟩ | hsh
      · exact .inl ⟨j, OpenList.mem_items_push.2 (.inr hj), hψ j (ha.lt_of_mem hj)⟩
      · exact .inr (hsh.extends hx hx' hψ)
  · have hgen := ha.tally.generated_eq
    change q.stats.generated + 1 = p.stats.generated + 1 + p.stats.openPrunes
    omega
  · have hhigh := ha.tally.highWater_le
    have hsize := ha.size_le
    change max p.openList.highWater (p.openList.size + 1) ≤ max q.openList.highWater (q.openList.size + 1)
    omega

/-- **A successor is handled by both runs in step**, though only one of them may put it on its list. -/
theorem generated {cost : Nat} {x : Nat × State} (ha : s.Aligned φ p q) (hn : p.nodes[i]? = some n)
    (hp : (s.suppressing true).Generated i cost p x p') (hq : (s.suppressing false).Generated (φ i) cost q x q') :
    ∃ ψ, ψ i = φ i ∧ s.Aligned ψ p' q' := by
  have hclosed : q.closed.contains x.2 = p.closed.contains x.2 := by rw [ha.closed_eq]
  have hx := hp.extends
  have hx' := hq.extends
  have hknown := ha.known.generated hp
  cases hp with
  | closed hc =>
    cases hq with
    | closed =>
      exact ⟨φ, rfl, { ha with
        extra := fun k hk => (ha.extra k hk).imp id (fun h => h.extends hx hx' (fun _ _ => rfl))
        tally := { ha.tally with closedPrunes_eq := congrArg (· + 1) ha.tally.closedPrunes_eq } }⟩
    | known hc' => simp [hclosed, hc] at hc'
    | pushed hc' => simp [hclosed, hc] at hc'
  | known hc hd hk hle =>
    cases hq with
    | closed hc' => simp [hclosed, hc] at hc'
    | known _ hd' => cases hd'
    | pushed => exact ⟨φ, rfl, ha.suppress hc ((ha.known hd _ _ hk).mono hle)⟩
  | pushed hc =>
    cases hq with
    | closed hc' => simp [hclosed, hc] at hc'
    | known _ hd' => cases hd'
    | pushed => exact ha.enqueue hn hknown

theorem foldl {cost : Nat} (ha : s.Aligned φ p q) (hn : p.nodes[i]? = some n) (l : List (Nat × State)) :
    ∃ ψ, s.Aligned ψ (l.foldl ((s.suppressing true).generate i cost) p)
      (l.foldl ((s.suppressing false).generate (φ i) cost) q) := by
  induction l generalizing φ p q with
  | nil => exact ⟨φ, ha⟩
  | cons x l ih =>
    have hp := (s.suppressing true).generated i cost p x
    obtain ⟨ψ, hi, ha'⟩ := ha.generated hn hp ((s.suppressing false).generated (φ i) cost q x)
    rw [List.foldl_cons, List.foldl_cons, ← hi]
    rw [← hi] at ha'
    exact ih ha' (hp.extends.nodes _ _ hn)

theorem start (s : Setup) : s.Aligned id (s.suppressing true).start (s.suppressing false).start := by
  have hvalid := valid_start (s.suppressing true)
  refine {
    queue_on := hvalid.queue
    queue_off := (valid_start (s.suppressing false)).queue
    known := hvalid.frontier.known
    closed_eq := rfl
    nodes := ⟨fun j m hm => hvalid.arena.estimate_eq hm, strictMono_id.strictMonoOn _, fun j m hm => ?_⟩
    kept := fun j hj => hj
    extra := fun j hj => .inl ⟨j, hj, rfl⟩
    tally := ⟨rfl, rfl, rfl, rfl, Nat.le_refl _, Nat.le_refl _⟩ }
  obtain ⟨is, htr, -, -, hle⟩ := hvalid.arena.trace hm
  exact ⟨m, hm, rfl, rfl, rfl, is, htr, hle, htr, hle⟩

theorem entry_le_iff {n' m' : Node} (ha : s.Aligned φ p q) (hi : i ∈ p.openList.items) (hj : j ∈ p.openList.items)
    (hn : Twin p.nodes q.nodes i (φ i) n n') (hm : Twin p.nodes q.nodes j (φ j) m m') :
    ((s.suppressing false).entry (φ i) n').le ((s.suppressing false).entry (φ j) m') = true ↔
      ((s.suppressing true).entry i n).le ((s.suppressing true).entry j m) = true := by
  rw [OpenEntry.le_iff, OpenEntry.le_iff]
  simp only [entry, hn.priority_eq, hm.priority_eq, hn.estimate_eq, hm.estimate_eq,
    ha.nodes.mono.le_iff_le (ha.lt_of_mem hi) (ha.lt_of_mem hj)]
  exact Iff.rfl

theorem open_twin (ha : s.Aligned φ p q) (hi : i ∈ p.openList.items) : ∃ n m, p.nodes[i]? = some n ∧
    Twin p.nodes q.nodes i (φ i) n m ∧ (s.suppressing true).entry i n ∈ p.openList.entries ∧
    (s.suppressing false).entry (φ i) m ∈ q.openList.entries := by
  obtain ⟨n, hn, he⟩ := ha.queue_on.mem_items.1 hi
  obtain ⟨m, ht⟩ := ha.nodes.twin i n hn
  obtain ⟨m', hm', he'⟩ := ha.queue_off.mem_items.1 (ha.kept i hi)
  obtain rfl : m' = m := Option.some.inj (hm'.symm.trans ht.found)
  exact ⟨n, m', hn, ht, he, he'⟩

/-- The first entry of the second run is the first entry of both, if the first run has it open. -/
theorem first_of_mem {rest' : OpenList Nat} (ha : s.Aligned φ p q) (hi : i ∈ p.openList.items)
    (hm : q.nodes[φ i]? = some m) (hpop : q.openList.Popped ((s.suppressing false).entry (φ i) m) rest') :
    ∃ n rest, p.nodes[i]? = some n ∧ Twin p.nodes q.nodes i (φ i) n m ∧
      p.openList.Popped ((s.suppressing true).entry i n) rest ∧
      (s.suppressing true).advance p = (s.suppressing true).visit { p with openList := rest } i n := by
  obtain ⟨n, m', hn, ht, he, -⟩ := ha.open_twin hi
  obtain rfl : m' = m := Option.some.inj (ht.found.symm.trans hm)
  rcases ha.queue_on.advance with ⟨hnil, -⟩ | ⟨j, l, rest, hl, hpop', -, hadv⟩
  · rw [hnil] at he
    cases he
  · have hj : j ∈ p.openList.items := ha.queue_on.mem_items.2 ⟨l, hl, hpop'.mem⟩
    obtain ⟨l', m, hl', ht', -, he'⟩ := ha.open_twin hj
    obtain rfl : l' = l := Option.some.inj (hl'.symm.trans hl)
    have hle := (ha.entry_le_iff hi hj ht ht').1 (hpop.first _ he')
    obtain rfl : i = j := OpenEntry.le_antisymm hle (hpop'.first _ he)
    obtain rfl : n = l' := Option.some.inj (hn.symm.trans hl)
    exact ⟨n, rest, hn, ht, hpop', hadv⟩

/-- What only the second run has open is taken off its list when its state is closed: while it is not, a node of its
state is in front of it. -/
theorem closed_of_first {rest' : OpenList Nat} (ha : s.Aligned φ p q) (hw : Double.Positive s.search.weight)
    (hm : q.nodes[k]? = some m) (hpop : q.openList.Popped ((s.suppressing false).entry k m) rest')
    (hk : ¬ ∃ i ∈ p.openList.items, φ i = k) : p.closed.contains m.state = true := by
  have hmem : k ∈ q.openList.items := ha.queue_off.mem_items.2 ⟨m, hm, hpop.mem⟩
  cases (ha.extra k hmem).resolve_left hk with
  | closed hm' hc =>
    rw [← Option.some.inj (hm'.symm.trans hm)]
    exact hc
  | @behind i n m' hm' hi hn hlt hstate hest hcost =>
    obtain rfl : m' = m := Option.some.inj (hm'.symm.trans hm)
    obtain ⟨l, t, hl, ht, -, he'⟩ := ha.open_twin hi
    obtain rfl : l = n := Option.some.inj (hl.symm.trans hn)
    have hnonneg : Double.Nonneg t.estimate := by
      rw [ht.estimate_eq, ha.nodes.estimate_eq i l hn]
      exact Cost.nonneg_toFloat _
    have hest : m'.estimate = t.estimate := hest.trans ht.estimate_eq.symm
    have hkey : ((s.suppressing false).entry (φ i) t).priority ≤ ((s.suppressing false).entry k m').priority :=
      key_le_of_cost_le hw hnonneg hest (ht.cost_eq ▸ hcost)
    have hle := OpenEntry.le_of_priority_le hkey (by simp only [entry, hest]) (Nat.le_of_lt hlt)
    exact absurd (OpenEntry.le_antisymm hle (hpop.first _ he')) (Nat.ne_of_lt hlt)

/-- **What the second run takes off its list is the first node of both runs**, unless it is stale. -/
theorem first {rest' : OpenList Nat} (ha : s.Aligned φ p q) (hw : Double.Positive s.search.weight)
    (hm : q.nodes[k]? = some m) (hpop : q.openList.Popped ((s.suppressing false).entry k m) rest')
    (hc : p.closed.contains m.state = false) :
    ∃ i n rest, φ i = k ∧ p.nodes[i]? = some n ∧ Twin p.nodes q.nodes i k n m ∧
      p.openList.Popped ((s.suppressing true).entry i n) rest ∧
      (s.suppressing true).advance p = (s.suppressing true).visit { p with openList := rest } i n := by
  by_cases hk : ∃ i ∈ p.openList.items, φ i = k
  · obtain ⟨i, hi, rfl⟩ := hk
    obtain ⟨n, rest, hfirst⟩ := ha.first_of_mem hi hm hpop
    exact ⟨i, n, rest, rfl, hfirst⟩
  · rw [ha.closed_of_first hw hm hpop hk] at hc
    cases hc

/-- **Both runs take the same node off their lists**, and its state is closed on the way. -/
theorem popped (ha : s.Aligned φ p q) (hn : p.nodes[i]? = some n)
    (hpop : p.openList.Popped ((s.suppressing true).entry i n) p'.openList)
    (hpop' : q.openList.Popped ((s.suppressing false).entry (φ i) m) q'.openList)
    (hnodes : p'.nodes = p.nodes) (hnodes' : q'.nodes = q.nodes) (hcosts : p'.openCosts = p.openCosts)
    (hclosed : q'.closed = p'.closed) (hstate : p'.closed.contains n.state = true)
    (hsub : ∀ u, p.closed.contains u = true → p'.closed.contains u = true) (ht : Tally p' q') : s.Aligned φ p' q' := by
  have hrest : ∀ j ∈ p.openList.items, j ≠ i → j ∈ p'.openList.items :=
    fun j hj hji => (hpop.mem_items_iff.1 hj).resolve_left hji
  refine {
    queue_on := hnodes ▸ ha.queue_on.popped hpop
    queue_off := hnodes' ▸ ha.queue_off.popped hpop'
    known := fun hd t c htc =>
      (ha.known hd t c (hcosts ▸ htc)).popped hn hpop hnodes hstate hsub
    closed_eq := hclosed
    nodes := by
      rw [hnodes, hnodes']
      exact ha.nodes
    kept := fun j hj => ?_
    extra := fun k hk => ?_
    tally := ht }
  · have hjp : j ∈ p.openList.items := hpop.mem_items_iff.2 (.inr hj)
    have hi : i ∈ p.openList.items := hpop.mem_items_iff.2 (.inl rfl)
    refine (hpop'.mem_items_iff.1 (ha.kept j hjp)).resolve_left (fun hφ => ?_)
    exact hpop.ne_of_mem ha.queue_on.nodup_items hj (ha.nodes.mono.injOn (ha.lt_of_mem hjp) (ha.lt_of_mem hi) hφ)
  · rcases ha.extra k (hpop'.mem_items_iff.2 (.inr hk)) with ⟨j, hj, rfl⟩ | hsh
    · refine .inl ⟨j, hrest j hj (fun hji => ?_), rfl⟩
      exact hpop'.ne_of_mem ha.queue_off.nodup_items hk (congrArg φ hji)
    · cases hsh with
      | closed hm hc => exact .inr (.closed (hnodes' ▸ hm) (hsub _ hc))
      | @behind j n' m' hm hj hn' hlt hstate' hest hcost =>
        by_cases hji : j = i
        · subst hji
          obtain rfl : n' = n := Option.some.inj (hn'.symm.trans hn)
          exact .inr (.closed (hnodes' ▸ hm) (hstate'.symm ▸ hstate))
        · exact .inr (.behind (hnodes' ▸ hm) (hrest j hj hji) (hnodes ▸ hn') hlt hstate' hest hcost)

theorem skip_both {rest rest' : OpenList Nat} (ha : s.Aligned φ p q) (hn : p.nodes[i]? = some n)
    (hpop : p.openList.Popped ((s.suppressing true).entry i n) rest)
    (hpop' : q.openList.Popped ((s.suppressing false).entry (φ i) m) rest') (hc : p.closed.contains n.state = true) :
    s.Aligned φ (Progress.skip { p with openList := rest } i n) (Progress.skip { q with openList := rest' } (φ i) m) :=
  ha.popped hn hpop hpop' rfl rfl rfl ha.closed_eq hc (fun _ hu => hu) { ha.tally with
    stalePops_le := Nat.succ_le_succ ha.tally.stalePops_le
    highWater_le := ha.tally.popped hpop hpop' }

theorem settle {rest rest' : OpenList Nat} (ha : s.Aligned φ p q) (hn : p.nodes[i]? = some n)
    (ht : Twin p.nodes q.nodes i (φ i) n m) (hpop : p.openList.Popped ((s.suppressing true).entry i n) rest)
    (hpop' : q.openList.Popped ((s.suppressing false).entry (φ i) m) rest') (l : Nat) :
    s.Aligned φ (Progress.settle { p with openList := rest } i n l)
      (Progress.settle { q with openList := rest' } (φ i) m l) :=
  ha.popped hn hpop hpop' rfl rfl rfl (by simp only [Progress.settle, ha.closed_eq, ht.state_eq])
    (ClosedSet.contains_insert.2 (.inl rfl)) (fun _ hu => ClosedSet.contains_insert.2 (.inr hu)) { ha.tally with
      explored_eq := congrArg (· + 1) ha.tally.explored_eq
      highWater_le := ha.tally.popped hpop hpop' }

/-- **Only the second run takes a node off its list**, a stale one that the first does not have open. -/
theorem skip {rest' : OpenList Nat} (ha : s.Aligned φ p q)
    (hpop : q.openList.Popped ((s.suppressing false).entry k m) rest') (hk : ¬ ∃ i ∈ p.openList.items, φ i = k) :
    s.Aligned φ p (Progress.skip { q with openList := rest' } k m) where
  queue_on := ha.queue_on
  queue_off := ha.queue_off.popped hpop
  known := ha.known
  closed_eq := ha.closed_eq
  nodes := ha.nodes
  kept i hi := (hpop.mem_items_iff.1 (ha.kept i hi)).resolve_left (fun h => hk ⟨i, hi, h⟩)
  extra j hj := by
    rcases ha.extra j (hpop.mem_items_iff.2 (.inr hj)) with hon | hsh
    · exact .inl hon
    · cases hsh with
      | closed hm hc => exact .inr (.closed hm hc)
      | behind hm hi hn hlt hstate hest hcost => exact .inr (.behind hm hi hn hlt hstate hest hcost)
  tally := { ha.tally with
    stalePops_le := Nat.le_succ_of_le ha.tally.stalePops_le
    highWater_le := by
      change p.openList.highWater ≤ rest'.highWater
      rw [hpop.highWater_eq]
      exact ha.tally.highWater_le }

end Aligned
end Setup
end AStar
end GroundPlanner
