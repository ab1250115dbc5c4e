import GroundPlanner.Proofs.AStar.Bound
import GroundPlanner.Proofs.AStar.Counters
import GroundPlanner.Proofs.Relaxation.Layers
/-!
# Priorities that never fall

With a consistent estimate and the weight one, no child has a lower priority than its parent (`Steady.rank_le_child`):
the estimate falls by one at most and the cost grows by one, and both are rounded once.  So the open list never holds
anything below the node taken last, and the nodes are taken off it in rising order (`pairwise_pops`), those that are
stale included.  A state of finite estimate is then expanded at its distance from the initial state, so no walk that the
search finds later is a cheaper way to it (`search_max_rising`).
-/
namespace GroundPlanner
namespace AStar

/-- The node that the next turn takes off the open list. -/
def Progress.next? (p : Progress) : Option Node :=
  p.openList.pop.bind (fun x => p.nodes[x.1]?)

namespace Setup

open Double

/-- The place of a node's priority among those of the open list. -/
def rank (s : Setup) (n : Node) : UInt64 :=
  orderKey (n.priority s.search.weight).toBits

/-- The nodes that `run` takes off the open list, in order. -/
def pops (s : Setup) (T : Termination) : Nat → T.Memory → Progress → List Node
  | 0, _, _ => []
  | n + 1, m, p =>
    match T.check m p.stats.explored with
    | (true, _) => []
    | (false, m) =>
      match s.advance p with
      | .more q => p.next?.toList ++ s.pops T n m q
      | .done .. => p.next?.toList

variable {s : Setup} {T : Termination} {m : T.Memory} {p q : Progress} {x : UInt64}

/-! ## Turns -/

theorem next?_eq_none (h : p.openList.entries = []) : p.next? = none := by
  unfold Progress.next?
  rw [OpenList.pop_eq_none_iff.2 h]
  rfl

/-- No two entries of the list come first. -/
theorem Queue.next?_eq (hq : s.Queue p.nodes p.openList) {i : Nat} {n : Node} {rest : OpenList Nat}
    (hn : p.nodes[i]? = some n) (hpop : p.openList.Popped (s.entry i n) rest) : p.next? = some n := by
  unfold Progress.next?
  cases hp : p.openList.pop with
  | none =>
    have hmem := hpop.mem
    rw [OpenList.pop_eq_none_iff.1 hp] at hmem
    cases hmem
  | some y =>
    obtain ⟨j, rest'⟩ := y
    obtain ⟨e, rfl, hpop'⟩ := hq.sound.pop hp
    obtain ⟨n', -, he⟩ := hq.entries e hpop'.mem
    have hserial := OpenEntry.le_antisymm (hpop.first e hpop'.mem) (hpop'.first _ hpop.mem)
    rw [he] at hserial
    have hitem : i = e.item := hserial
    rw [Option.bind_some, ← hitem]
    exact hn

theorem Queue.of_next? (hq : s.Queue p.nodes p.openList) {n : Node} (h : p.next? = some n) :
    ∃ i rest, p.nodes[i]? = some n ∧ p.openList.Popped (s.entry i n) rest := by
  obtain ⟨⟨i, rest⟩, hp, hn⟩ := Option.bind_eq_some_iff.1 h
  obtain ⟨e, rfl, hpop⟩ := hq.sound.pop hp
  obtain ⟨m, hm, he⟩ := hq.entries e hpop.mem
  obtain rfl : m = n := Option.some.inj (hm.symm.trans hn)
  exact ⟨e.item, rest, hn, he ▸ hpop⟩

theorem Generated.le_priority {i cost : Nat} {y : Nat × State} (h : s.Generated i cost p y q)
    (hp : ∀ e ∈ p.openList.entries, x ≤ e.priority) (hy : x ≤ s.rank (.child y.2 i y.1 cost (s.estimate y.2))) :
    ∀ e ∈ q.openList.entries, x ≤ e.priority := by
  cases h with
  | closed => exact hp
  | known => exact hp
  | pushed =>
    intro e he
    rcases OpenList.mem_entries_push.1 he with rfl | he
    · exact hy
    · exact hp e he

theorem le_priority_foldl {i cost : Nat} (l : List (Nat × State)) (hp : ∀ e ∈ p.openList.entries, x ≤ e.priority)
    (hl : ∀ y ∈ l, x ≤ s.rank (.child y.2 i y.1 cost (s.estimate y.2))) :
    ∀ e ∈ (l.foldl (s.generate i cost) p).openList.entries, x ≤ e.priority :=
  List.foldlRecOn (motive := fun q : Progress => ∀ e ∈ q.openList.entries, x ≤ e.priority) l _ hp
    (fun q hq y hy => (s.generated i cost q y).le_priority hq (hl y hy))

/-- A consistent estimate that stays where ones are told apart. -/
structure Steady (s : Setup) : Prop where
  consistent : s.Consistent 1
  small : ∀ t, (s.relaxation.estimate t s.problem.goal).Small

/-- **A child has no lower priority than its parent.** -/
theorem Steady.rank_le_child (hs : s.Steady) {n : Node} (hest : n.estimate = s.estimate n.state) {y : Nat × State}
    (hy : y ∈ s.problem.successors n.state) (hcost : n.cost < Cost.exactBound) (i : Nat) :
    s.rank n ≤ s.rank (.child y.2 i y.1 (n.cost + 1) (s.estimate y.2)) := by
  obtain ⟨a, ha, happ, hsucc⟩ := Problem.mem_successors.1 hy
  have hstep : s.height n.state ≤ s.height y.2 + 1 :=
    hs.consistent.height_walk n.state [y.1] y.2 (.cons ha happ (hsucc ▸ .nil _))
  have hpos := hs.consistent.positive
  unfold rank
  rw [hs.consistent.weight]
  have hn : Nonneg n.estimate := hest ▸ Cost.nonneg_toFloat _
  refine (orderKey_le_iff (nonneg_priority hpos hn) (nonneg_priority hpos (Cost.nonneg_toFloat _))).2 ?_
  cases hchild : s.relaxation.estimate y.2 s.problem.goal with
  | infinite =>
    rw [pattern_priority_infinite (n := .child y.2 i y.1 (n.cost + 1) (s.estimate y.2)) hpos
      (congrArg Cost.toFloat hchild)]
    exact nonneg_priority hpos hn
  | finite k =>
    rw [height_eq hchild] at hstep
    obtain ⟨h, hparent, hh⟩ := exists_finite (ne_top_of_le_ne_top (ENat.natCast_ne_top (k + 1)) hstep)
    have hle : h ≤ k + 1 := by
      rw [hh] at hstep
      exact_mod_cast hstep
    have hh : h ≤ Cost.exactBound := hs.small n.state h hparent
    have hk : k ≤ Cost.exactBound := hs.small y.2 k hchild
    rw [pattern_priority_finite hpos (hest.trans (congrArg Cost.toFloat hparent)) (by omega) (by omega),
      pattern_priority_finite (n := .child y.2 i y.1 (n.cost + 1) (s.estimate y.2)) hpos
        (congrArg Cost.toFloat hchild) (by omega) hcost]
    refine pattern_ofNat_le ?_
    change 1 * h + n.cost ≤ 1 * k + (n.cost + 1)
    omega

/-- **A turn leaves nothing on the open list below the node that it takes off.** -/
theorem Steady.moved (hs : s.Steady) (hv : s.Valid p) (h : s.Moved p q) {n : Node} (hnext : p.next? = some n)
    (hcost : n.cost < Cost.exactBound) : ∀ e ∈ q.openList.entries, s.rank n ≤ e.priority := by
  cases h with
  | stale hn hpop =>
    obtain rfl := Option.some.inj (hnext.symm.trans (hv.queue.next?_eq hn hpop))
    exact fun e he => OpenEntry.priority_le (hpop.first e (hpop.mem_of_mem he))
  | expanded hn hpop =>
    obtain rfl := Option.some.inj (hnext.symm.trans (hv.queue.next?_eq hn hpop))
    refine le_priority_foldl _ (fun e he => ?_) fun y hy => ?_
    · exact OpenEntry.priority_le (hpop.first e (hpop.mem_of_mem he))
    · exact hs.rank_le_child (hv.arena.estimate_eq hn) hy hcost _

/-! ## Runs -/

/-- **How nodes are taken off the open list**, one in each turn, until the search ends or is stopped. -/
inductive Takes (s : Setup) : Progress → List Node → Progress → Prop where
  | nil (p : Progress) : Takes s p [] p
  | goal {p f : Progress} {plan : Plan} {n : Node} (hnext : p.next? = some n)
    (h : s.Finished p (.succeeded plan) f) : Takes s p [n] f
  | turn {p q f : Progress} {n : Node} {ns : List Node} (hnext : p.next? = some n) (h : s.advance p = .more q)
    (ht : Takes s q ns f) : Takes s p (n :: ns) f

theorem takes_pops (hv : s.Valid p) (k : Nat) : s.Takes p (s.pops T k m p) (s.run T k m p).2 := by
  induction k generalizing m p with
  | zero => exact .nil p
  | succ k ih =>
    unfold pops run
    cases hcheck : T.check m p.stats.explored with
    | mk b m' =>
      cases b with
      | true => exact .nil p
      | false =>
        cases hadv : s.advance p with
        | more q =>
          obtain ⟨n, hnext⟩ : ∃ n, p.next? = some n := by
            cases hv.queue.moved hadv with
            | stale hn hpop => exact ⟨_, hv.queue.next?_eq hn hpop⟩
            | expanded hn hpop => exact ⟨_, hv.queue.next?_eq hn hpop⟩
          simp only [hnext, Option.toList_some, List.singleton_append]
          exact .turn hnext hadv (ih (hv.more hadv))
        | done o f =>
          have hfin := hv.queue.finished hadv
          cases hv.queue.finished hadv with
          | exhausted hnil =>
            simp only [next?_eq_none hnil, Option.toList_none]
            exact .nil p
          | goal hn hpop =>
            have hnext := hv.queue.next?_eq hn hpop
            simp only [hnext, Option.toList_some]
            exact .goal hnext hfin

/-- Every node that is taken off the open list is counted. -/
theorem Takes.popped_eq {ns : List Node} {f : Progress} (h : s.Takes p ns f) (hv : s.Valid p) :
    f.stats.popped = p.stats.popped + ns.length := by
  induction h with
  | nil => rfl
  | goal _ h =>
    cases h
    rfl
  | turn _ hadv _ ih =>
    rw [ih (hv.more hadv), hv.popped_more hadv, List.length_cons]
    omega

theorem Takes.mem_nodes {ns : List Node} {f : Progress} {n : Node} (h : s.Takes p ns f) (hv : s.Valid p)
    (hn : n ∈ p.nodes) : n ∈ f.nodes := by
  induction h with
  | nil => exact hn
  | goal _ h => exact h.nodes_eq ▸ hn
  | turn _ hadv _ ih =>
    obtain ⟨i, hi⟩ := Array.mem_iff_getElem?.1 hn
    exact ih (hv.more hadv) (Array.mem_of_getElem? ((hv.queue.moved hadv).nodes hi))

/-- **The nodes are taken off the open list in rising order.** -/
theorem Takes.pairwise {ns : List Node} {f : Progress} (hs : s.Steady) (h : s.Takes p ns f) (hv : s.Valid p)
    (hcost : ∀ n ∈ f.nodes, n.cost < Cost.exactBound) {x : UInt64} (hx : ∀ e ∈ p.openList.entries, x ≤ e.priority) :
    (∀ n ∈ ns, x ≤ s.rank n) ∧ ns.Pairwise (fun n n' => s.rank n ≤ s.rank n') := by
  induction h generalizing x with
  | nil => exact ⟨fun _ hn => absurd hn List.not_mem_nil, .nil⟩
  | goal hnext _ =>
    obtain ⟨i, rest, -, hpop⟩ := hv.queue.of_next? hnext
    refine ⟨fun n hn => ?_, List.pairwise_singleton _ _⟩
    rw [List.mem_singleton.1 hn]
    exact hx _ hpop.mem
  | @turn p q f n ns hnext hadv ht ih =>
    obtain ⟨i, rest, hn, hpop⟩ := hv.queue.of_next? hnext
    have hmem : n ∈ f.nodes := (Takes.turn hnext hadv ht).mem_nodes hv (Array.mem_of_getElem? hn)
    have hfirst : x ≤ s.rank n := hx _ hpop.mem
    obtain ⟨hall, hpair⟩ := ih (hv.more hadv) hcost (hs.moved hv (hv.queue.moved hadv) hnext (hcost n hmem))
    exact ⟨List.forall_mem_cons.2 ⟨hfirst, fun n' hn' => UInt64.le_trans hfirst (hall n' hn')⟩, .cons hall hpair⟩

end Setup

variable {a : AStar} {T : Termination} {d : Draft} {p : Problem} {r : Report}

/-- The nodes that the search of a problem takes off the open list, in order: those that are stale and the goal
included. -/
def pops (a : AStar) (T : Termination) (p : Problem) : List Node :=
  (a.setup p).pops T (a.setup p).turns T.start (a.setup p).start

theorem one_eq_ofNat : (1.0 : Float) = Float.ofNat 1 := by
  decide +kernel

theorem steady_max (hb : d.build = .ok p) (hk : a.heuristic.kind = .max) (hw : a.weight = 1.0) :
    (a.setup p).Steady where
  consistent := consistent_max hb hk (hw.trans one_eq_ofNat)
    (one_eq_ofNat ▸ positive_of_validWeight (by decide +kernel)) le_rfl
  small := Relaxation.small_estimate (Draft.build_inTable hb) hk

/-- A table of at most `2^52` facts leaves room for the costs in exact priorities. -/
theorem exact_of_numFacts (hb : d.build = .ok p) (hk : a.heuristic.kind = .max) (hn : p.numFacts ≤ 2 ^ 52)
    {nodes : Array Node} (hcost : ∀ n ∈ nodes, n.cost < 2 ^ 32) : (a.setup p).Exact 1 nodes := by
  intro i n h hi hest
  have hfacts : h ≤ p.numFacts := Relaxation.estimate_le_numFacts (Draft.build_inTable hb) hk hest
  have hlt := hcost n (Array.mem_of_getElem? hi)
  unfold Cost.exactBound
  omega

/-- **An expanded state is expanded at the length of a walk to it**, and of a shortest one as far as priorities are
exact. -/
theorem ending_expanded (hc : (a.setup p).Consistent 1) {n : Node} (hn : n ∈ (a.ending T p).2.expanded) :
    (∃ is, p.Walk p.init is n.state ∧ is.length = n.cost) ∧
    ((a.setup p).Exact 1 (a.ending T p).2.nodes → (a.setup p).height n.state ≠ ⊤ →
      ∀ is, p.Walk p.init is n.state → n.cost ≤ is.length) := by
  obtain ⟨q, hv, hbelow, hend⟩ := ending_bounded hc T
  have hsame : (a.ending T p).2.expanded = q.expanded ∧ (a.ending T p).2.nodes = q.nodes := by
    rcases hend with ⟨-, heq⟩ | hfin
    · rw [heq]
      exact ⟨rfl, rfl⟩
    · exact ⟨hfin.expanded_eq, hfin.nodes_eq⟩
  rw [hsame.1] at hn
  rw [hsame.2]
  obtain ⟨i, hi⟩ := Setup.History.mem_nodes hn
  obtain ⟨is, -, hw, hlen, -⟩ := hv.arena.trace hi
  refine ⟨⟨is, hw, hlen⟩, fun hx htop js hjs => ?_⟩
  have hle := hbelow.bounded hx n hn htop js hjs
  rwa [Nat.one_mul] at hle

/-- **With the maximum as estimate and the weight one, nodes are taken off the open list in the order of their
priorities**, and a state of finite estimate is expanded at its distance from the initial state, so no other expanded
state ever offers it for less.  Costs are below `2^32`, and for the second part there are no more than `2^52` facts, so
that sums of both are exact. -/
theorem search_max_rising (hb : d.build = .ok p) (hk : a.heuristic = .max ∨ a.heuristic = .setLevel)
    (hw : a.weight = 1.0) (h : a.search T p = .ok r) (hcost : ∀ n ∈ (a.ending T p).2.nodes, n.cost < 2 ^ 32) :
    (a.pops T p).length = r.stats.popped ∧
    (a.pops T p).Pairwise (fun n n' => (a.setup p).rank n ≤ (a.setup p).rank n') ∧
    (p.numFacts ≤ 2 ^ 52 → ∀ n ∈ (a.ending T p).2.expanded,
      (Relaxation.ofProblem a.heuristic p).estimate n.state p.goal ≠ .infinite →
      IsLeast {k | ∃ is, p.Walk p.init is n.state ∧ is.length = k} n.cost ∧
      ∀ m ∈ (a.ending T p).2.expanded, ∀ i, (i, n.state) ∈ p.successors m.state → n.cost ≤ m.cost + 1) := by
  obtain ⟨-, rfl⟩ := search_eq_ok_iff.1 h
  have hkind : a.heuristic.kind = .max := by rcases hk with hk | hk <;> rw [hk] <;> rfl
  have hs : (a.setup p).Steady := steady_max hb hkind hw
  have hv : (a.setup p).Valid (a.setup p).start := Setup.valid_start _
  have htakes : (a.setup p).Takes (a.setup p).start (a.pops T p) (a.ending T p).2 := Setup.takes_pops hv _
  refine ⟨?_, ?_, fun hfacts n hn hest => ?_⟩
  · exact ((htakes.popped_eq hv).trans (Nat.zero_add _)).symm
  · refine (htakes.pairwise hs hv (fun n hn => ?_) (x := 0) fun _ _ => UInt64.zero_le).2
    exact Nat.lt_trans (hcost n hn) (by decide)
  · obtain ⟨hwalk, hleast⟩ := ending_expanded hs.consistent hn
    have hle := hleast (exact_of_numFacts hb hkind hfacts hcost) fun htop => hest (Cost.value_injective htop)
    refine ⟨⟨hwalk, ?_⟩, fun m hm i hi => ?_⟩
    · rintro - ⟨is, hw, rfl⟩
      exact hle is hw
    · obtain ⟨⟨is, hw, hlen⟩, -⟩ := ending_expanded hs.consistent hm
      obtain ⟨b, hb, happ, hsucc⟩ := Problem.mem_successors.1 hi
      have hmore := hle (is ++ [i]) (hsucc ▸ hw.concat hb happ)
      rwa [List.length_append, List.length_singleton, hlen] at hmore

/-- Two switches, each of which turns the other off. -/
def rivalSwitches : Draft where
  name := "rivals"
  facts := some ["left", "right"]
  goal := ["left", "right"]
  actions := [{ name := "left", add := ["left"], del := ["right"] },
    { name := "right", add := ["right"], del := ["left"] }]

/-- The second switch is offered again by the first, so one node is stale; priorities never fall, and each switch is on
after one action. -/
theorem search_max_rising_switches : ∃ p r, rivalSwitches.build = .ok p ∧
    (AStar.mk .setLevel 1.0 false).search .never p = .ok r ∧ r.stats.stalePops = 1 ∧
    ((AStar.mk .setLevel 1.0 false).pops .never p).length = 4 ∧
    ((AStar.mk .setLevel 1.0 false).pops .never p).Pairwise
      (fun n n' => orderKey (n.priority 1.0).toBits ≤ orderKey (n'.priority 1.0).toBits) ∧
    ∀ n ∈ ((AStar.mk .setLevel 1.0 false).ending .never p).2.expanded,
      (Relaxation.ofProblem .setLevel p).estimate n.state p.goal ≠ .infinite →
      ∀ is, p.Walk p.init is n.state → n.cost ≤ is.length := by
  obtain ⟨p, r, hb, hs, hr⟩ := exists_search (a := AStar.mk .setLevel 1.0 false) (T := .never)
    (d := rivalSwitches) (fun p r => r.stats.stalePops == 1 && (r.stats.popped == 4 && (p.numFacts ≤ 2 ^ 52 &&
      ((AStar.mk .setLevel 1.0 false).ending .never p).2.nodes.toList.all (fun n => n.cost < 2 ^ 32))))
    (by decide +kernel)
  simp only [Bool.and_eq_true, beq_iff_eq, decide_eq_true_eq, List.all_eq_true] at hr
  obtain ⟨hstale, hpopped, hfacts, hcost⟩ := hr
  obtain ⟨hlen, hpair, hleast⟩ := search_max_rising hb (.inr rfl) rfl hs fun n hn => hcost n (Array.mem_toList_iff.2 hn)
  exact ⟨p, r, hb, hs, hstale, hlen.trans hpopped, hpair,
    fun n hn hest is hw => (hleast hfacts n hn hest).1.2 ⟨is, hw, rfl⟩⟩

end AStar
end GroundPlanner
