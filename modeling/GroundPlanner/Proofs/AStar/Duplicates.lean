import GroundPlanner.Proofs.AStar.Alignment
import GroundPlanner.Proofs.AStar.Outcome
import GroundPlanner.Proofs.Search.Termination
/-!
# Suppression of duplicates

Searching with suppression of duplicates is the same search with fewer open nodes (`search_suppressing_agrees`).  A turn
of the search without it is a turn of both, or it takes a stale node off the list and the other search waits
(`Abreast.more`).  So the search without it asks the termination more often, and the two agree if the termination is
steady.
-/
namespace GroundPlanner
namespace AStar
namespace Setup

/-- **Two runs between two turns**, at `p` with suppression of duplicates and at `q` without. -/
structure Abreast (s : Setup) (p q : Progress) : Prop where
  valid_on : (s.suppressing true).Valid p
  valid_off : (s.suppressing false).Valid q
  aligned : ∃ φ, s.Aligned φ p q
  states_eq : q.expanded.map Node.state = p.expanded.map Node.state

variable {s : Setup} {p q p' q' f : Progress} {o : SearchOutcome} {T : Termination}

theorem abreast_start (s : Setup) : s.Abreast (s.suppressing true).start (s.suppressing false).start :=
  ⟨valid_start _, valid_start _, ⟨id, .start s⟩, rfl⟩

namespace Abreast

/-- **A turn of the run without suppression**: the other run waits, or takes the same turn. -/
theorem more (h : s.Abreast p q) (hw : Double.Positive s.search.weight)
    (hadv : (s.suppressing false).advance q = .more q') :
    s.Abreast p q' ∨ ∃ p', (s.suppressing true).advance p = .more p' ∧ s.Abreast p' q' := by
  have hoff := h.valid_off.more hadv
  obtain ⟨φ, ha⟩ := h.aligned
  cases h.valid_off.queue.moved hadv with
  | @stale k m rest' hm hpop hrest hc =>
    have hexp : (Progress.skip { q with openList := rest' } k m).expanded = q.expanded := expanded_skip
    by_cases hk : ∃ i ∈ p.openList.items, φ i = k
    · obtain ⟨i, hi, rfl⟩ := hk
      obtain ⟨n, rest, hn, ht, hpop', hvisit⟩ := ha.first_of_mem hi hm hpop
      have hcn : p.closed.contains n.state = true := by rw [← ha.closed_eq, ← ht.state_eq, hc]
      have hon := hvisit.trans (visit_stale hcn)
      refine .inr ⟨_, hon, h.valid_on.more hon, hoff, ⟨φ, ha.skip_both hn hpop' hpop hcn⟩, ?_⟩
      rw [hexp, h.states_eq]
      exact congrArg _ expanded_skip.symm
    · exact .inl ⟨h.valid_on, hoff, ⟨φ, ha.skip hpop hk⟩, hexp ▸ h.states_eq⟩
  | @expanded k m rest' hm hpop hrest hc hg =>
    have hcm : p.closed.contains m.state = false := ha.closed_eq ▸ hc
    obtain ⟨i, n, rest, rfl, hn, ht, hpop', hvisit⟩ := ha.first hw hm hpop hcm
    have hcn : p.closed.contains n.state = false := ht.state_eq ▸ hcm
    have hgn : s.problem.isGoal n.state = false := ht.state_eq ▸ hg
    have hon := hvisit.trans (visit_expanded hcn hgn)
    refine .inr ⟨_, hon, h.valid_on.more hon, hoff, ?_, ?_⟩
    · rw [ht.cost_eq, ht.state_eq]
      exact (ha.settle hn ht hpop' hpop _).foldl hn _
    · have hexp := (h.valid_on.history.openList rest).expanded_cons hn hcn hgn
        (s.problem.successors n.state) (n.cost + 1)
      have hexp' := (h.valid_off.history.openList rest').expanded_cons hm hc hg
        (s.problem.successors m.state) (m.cost + 1)
      calc
        _ = (m :: q.expanded).map Node.state := congrArg _ hexp'
        _ = (n :: p.expanded).map Node.state := by rw [List.map_cons, List.map_cons, ht.state_eq, h.states_eq]
        _ = _ := (congrArg _ hexp).symm

/-- **The last turn of the run without suppression** is the last turn of both. -/
theorem done (h : s.Abreast p q) (hw : Double.Positive s.search.weight)
    (hadv : (s.suppressing false).advance q = .done o f) : ∃ g, (s.suppressing true).advance p = .done o g ∧
      Tally g f ∧ f.expanded.map Node.state = g.expanded.map Node.state := by
  obtain ⟨φ, ha⟩ := h.aligned
  cases h.valid_off.queue.finished hadv with
  | exhausted hnil =>
    rcases ha.queue_on.advance with ⟨-, hon⟩ | ⟨i, n, rest, hn, hpop, -⟩
    · exact ⟨p, hon, ha.tally, h.states_eq⟩
    · obtain ⟨_, _, _, _, -, he⟩ := ha.open_twin (ha.queue_on.mem_items.2 ⟨n, hn, hpop.mem⟩)
      rw [hnil] at he
      cases he
  | @goal k m rest' hm hpop hc hg =>
    have hcm : p.closed.contains m.state = false := ha.closed_eq ▸ hc
    obtain ⟨i, n, rest, rfl, hn, ht, hpop', hvisit⟩ := ha.first hw hm hpop hcm
    have hon := hvisit.trans (visit_goal (ht.state_eq ▸ hcm) (ht.state_eq ▸ hg))
    refine ⟨Progress.finish { p with openList := rest } n, ?_, { ha.tally with
      goalCost_eq := congrArg some ht.cost_eq
      highWater_le := ha.tally.popped hpop' hpop }, h.states_eq⟩
    rw [hon, ht.pathTo_eq hn]

theorem check_eq {stop : Nat → Bool} (hT : ∀ ks k, (T.check (T.asked ks) k).1 = stop k) (h : s.Abreast p q) {b : Bool}
    {m' : T.Memory} {ks : List Nat} (hs : T.check (T.asked ks) q.stats.explored = (b, m')) (ks' : List Nat) :
    m' = T.asked (q.stats.explored :: ks) ∧
      T.check (T.asked ks') p.stats.explored = (b, T.asked (p.stats.explored :: ks')) := by
  obtain ⟨φ, ha⟩ := h.aligned
  have hq := (Termination.check_asked hT ks q.stats.explored).symm.trans hs
  have hp := Termination.check_asked hT ks' p.stats.explored
  obtain ⟨hb, hm⟩ := Prod.mk.inj hq
  rw [ha.tally.explored_eq] at hb
  exact ⟨hm.symm, hb ▸ hp⟩

/-- **The runs end alike** when the termination is steady, however often either asks it. -/
theorem ends {stop : Nat → Bool} (hT : ∀ ks k, (T.check (T.asked ks) k).1 = stop k)
    (hw : Double.Positive s.search.weight) {m : T.Memory} (he : (s.suppressing false).Ends T m q o f) {ks : List Nat}
    (hm : m = T.asked ks) (ks' : List Nat) (h : s.Abreast p q) : ∃ g, (s.suppressing true).Ends T (T.asked ks') p o g ∧
      Tally g f ∧ f.expanded.map Node.state = g.expanded.map Node.state := by
  induction he generalizing p ks ks' with
  | @stopped m m' q hs =>
    subst hm
    obtain ⟨φ, ha⟩ := h.aligned
    exact ⟨p, .stopped (h.check_eq hT hs ks').2, ha.tally, h.states_eq⟩
  | last hs hadv =>
    subst hm
    obtain ⟨g, hon, hg⟩ := h.done hw hadv
    exact ⟨g, .last (h.check_eq hT hs ks').2 hon, hg⟩
  | turn hs hadv he ih =>
    subst hm
    obtain ⟨hm', hcheck⟩ := h.check_eq hT hs ks'
    rcases h.more hw hadv with hwait | ⟨p', hon, hnext⟩
    · exact ih hm' ks' hwait
    · obtain ⟨g, hends, hg⟩ := ih hm' _ hnext
      exact ⟨g, .turn hcheck hon hends, hg⟩

end Abreast
end Setup

variable {a : AStar} {p : Problem} {on : Report}

theorem ending_suppressing (hT : T.Steady) (hw : Double.Positive a.weight) :
    ((a.suppressing false).ending T p).1 = ((a.suppressing true).ending T p).1 ∧
    Setup.Tally ((a.suppressing true).ending T p).2 ((a.suppressing false).ending T p).2 ∧
    (a.suppressing false).expandedStates T p = (a.suppressing true).expandedStates T p := by
  obtain ⟨stop, hstop⟩ := hT
  have hoff : ((a.setup p).suppressing false).Ends T (T.asked []) ((a.setup p).suppressing false).start
      ((a.suppressing false).ending T p).1 ((a.suppressing false).ending T p).2 := (a.suppressing false).ending_ends T p
  obtain ⟨g, hon, htally, hstates⟩ := Setup.Abreast.ends hstop hw hoff rfl [] (Setup.abreast_start (a.setup p))
  obtain ⟨ho, rfl⟩ := hon.unique ((a.suppressing true).ending_ends T p)
  exact ⟨ho, htally, congrArg List.reverse hstates⟩

/-- **Suppression of duplicates does not change a search** that is never stopped or stopped after a number of steps:
without it the same states are expanded in the same order, with the same outcome, and what was suppressed is generated
instead. -/
theorem search_suppressing_agrees (hT : T.NeverFires ∨ ∃ n, T = .afterSteps n)
    (h : (a.suppressing true).search T p = .ok on) : ∃ off, (a.suppressing false).search T p = .ok off ∧
      (a.suppressing false).expandedStates T p = (a.suppressing true).expandedStates T p ∧
      off.outcome = on.outcome ∧ off.stats.goalCost = on.stats.goalCost ∧ off.stats.explored = on.stats.explored ∧
      off.stats.closedPrunes = on.stats.closedPrunes ∧
      off.stats.generated = on.stats.generated + on.stats.openPrunes ∧
      on.stats.stalePops ≤ off.stats.stalePops ∧ on.stats.openHighWater ≤ off.stats.openHighWater := by
  have hsteady : T.Steady := by
    rcases hT with hnever | ⟨n, rfl⟩
    · exact hnever.steady
    · exact Termination.steady_afterSteps n
  obtain ⟨hcheck, rfl⟩ := search_eq_ok_iff.1 h
  obtain ⟨ho, ht, hstates⟩ := ending_suppressing (p := p) hsteady (positive_of_check hcheck)
  exact ⟨_, search_eq_ok_iff.2 ⟨hcheck, rfl⟩, hstates, ho, ht.goalCost_eq, ht.explored_eq, ht.closedPrunes_eq,
    ht.generated_eq, ht.stalePops_le, ht.highWater_le⟩

/-- Two bits can be set in either order: one copy of the state with both is suppressed, and generated without. -/
theorem search_suppressing_agrees_toggles : ∃ p on off, (Families.toggleSpace 2).build = .ok p ∧
    ((AStar.mk .max 1.0 true).suppressing true).search .never p = .ok on ∧
    ((AStar.mk .max 1.0 true).suppressing false).search .never p = .ok off ∧
    on.stats.openPrunes = 1 ∧ off.stats.generated = on.stats.generated + 1 ∧ off.outcome = on.outcome := by
  obtain ⟨p, on, hb, hs, ho⟩ := exists_search (a := (AStar.mk .max 1.0 true).suppressing true) (T := .never)
    (d := Families.toggleSpace 2) (fun _ r => r.stats.openPrunes == 1) (by decide +kernel)
  have ho : on.stats.openPrunes = 1 := eq_of_beq ho
  obtain ⟨off, hoff, -, hout, -, -, -, hgen, -⟩ := search_suppressing_agrees (.inl Termination.neverFires_never) hs
  exact ⟨p, on, off, hb, hs, hoff, ho, ho ▸ hgen, hout⟩

end AStar
end GroundPlanner
