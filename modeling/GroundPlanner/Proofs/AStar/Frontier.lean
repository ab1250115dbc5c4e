import GroundPlanner.Proofs.AStar.Arena
/-!
# The frontier of a search

`Covered t c` says that no state gets lost: `t` is closed, or an open node of it costs at most `c`.  Between two turns
the initial state is covered, every state known to the open costs is, and every successor of an expanded node is at one
more than the node's cost (`Frontier`).  `History` ties the closed states to the expanded nodes, and `Valid` joins
all invariants of a search; `Valid.more` is the step.
-/
namespace GroundPlanner
namespace AStar
namespace Progress

/-- Some open node of state `t` costs at most `c`. -/
def Offered (p : Progress) (t : State) (c : Nat) : Prop :=
  ∃ e ∈ p.openList.entries, ∃ n, p.nodes[e.item]? = some n ∧ n.state = t ∧ n.cost ≤ c

/-- The state `t` is closed, or some open node of it costs at most `c`. -/
def Covered (p : Progress) (t : State) (c : Nat) : Prop :=
  p.closed.contains t = true ∨ p.Offered t c

variable {p q : Progress} {t : State} {c d : Nat}

theorem Offered.mono (h : p.Offered t c) (hcd : c ≤ d) : p.Offered t d := by
  obtain ⟨e, he, n, hn, hs, hc⟩ := h
  exact ⟨e, he, n, hn, hs, Nat.le_trans hc hcd⟩

theorem Covered.mono (h : p.Covered t c) (hcd : c ≤ d) : p.Covered t d :=
  h.imp id (fun ho => ho.mono hcd)

namespace Extends

theorem offered (hx : p.Extends q) (h : p.Offered t c) : q.Offered t c := by
  obtain ⟨e, he, n, hn, hs, hc⟩ := h
  exact ⟨e, hx.entries e he, n, hx.nodes _ _ hn, hs, hc⟩

theorem covered (hx : p.Extends q) (h : p.Covered t c) : q.Covered t c :=
  h.imp (fun hc => hx.closed_eq ▸ hc) hx.offered

end Extends

/-- **Taking a node off the open list loses no state** when the node's state is closed on the way. -/
theorem Covered.popped {s : Setup} {i : Nat} {n : Node} (h : p.Covered t c) (hn : p.nodes[i]? = some n)
    (hpop : p.openList.Popped (s.entry i n) q.openList) (hnodes : q.nodes = p.nodes)
    (hstate : q.closed.contains n.state = true)
    (hclosed : ∀ u, p.closed.contains u = true → q.closed.contains u = true) : q.Covered t c := by
  rcases h with hc | ⟨e, he, m, hm, hs, hle⟩
  · exact .inl (hclosed t hc)
  · rcases hpop.mem_iff.1 he with rfl | he
    · rw [show (s.entry i n).item = i from rfl, hn] at hm
      cases hm
      exact .inl (hs ▸ hstate)
    · exact .inr ⟨e, he, m, hnodes ▸ hm, hs, hle⟩

end Progress

namespace Setup

variable {s : Setup} {p q : Progress}

/-- Every state with a known cost is covered at it. -/
def Known (s : Setup) (p : Progress) : Prop :=
  s.search.suppressDuplicates = true → ∀ t c, p.openCosts.known? t = some c → p.Covered t c

/-- **A successor is covered once it is handled.** -/
theorem Generated.covered {i cost : Nat} {x : Nat × State} (hk : s.Known p) (h : s.Generated i cost p x q) :
    q.Covered x.2 cost := by
  cases h with
  | closed hc => exact .inl hc
  | known _ hd hkn hle => exact (hk hd _ _ hkn).mono hle
  | pushed =>
    exact .inr ⟨_, OpenList.mem_entries_push.2 (.inl rfl), _, Array.getElem?_push_size, rfl, Nat.le_refl _⟩

theorem Known.generated {i cost : Nat} {x : Nat × State} (hk : s.Known p) (h : s.Generated i cost p x q) :
    s.Known q := by
  intro hd t c ht
  have hext := h.extends
  have hcov := h.covered hk
  cases h with
  | closed => exact hext.covered (hk hd t c ht)
  | known => exact hext.covered (hk hd t c ht)
  | pushed _ ho =>
    have ht' := (known?_of_offer hd ho t).symm.trans ht
    split at ht'
    · rename_i htx
      obtain rfl := Option.some.inj ht'
      exact htx ▸ hcov
    · exact hext.covered (hk hd t c ht')

theorem Known.foldl {p : Progress} (hk : s.Known p) (i cost : Nat) (l : List (Nat × State)) :
    s.Known (l.foldl (s.generate i cost) p) ∧ ∀ x ∈ l, (l.foldl (s.generate i cost) p).Covered x.2 cost := by
  induction l generalizing p with
  | nil => exact ⟨hk, fun _ h => by cases h⟩
  | cons x l ih =>
    have hg := s.generated i cost p x
    obtain ⟨hkl, hcov⟩ := ih (hk.generated hg)
    refine ⟨hkl, fun y hy => ?_⟩
    rcases List.mem_cons.1 hy with rfl | hy
    · exact (s.extends_foldl i cost _ l).covered (hg.covered hk)
    · exact hcov y hy

/-- **What was expanded**: different states, none of them a goal, and all that is closed. -/
structure History (s : Setup) (p : Progress) : Prop where
  logged : ∀ e ∈ p.events, ∀ i, e.expansion? = some i → i < p.nodes.size
  closed_iff : ∀ t, p.closed.contains t = true ↔ ∃ n ∈ p.expanded, n.state = t
  distinct : (p.expanded.map Node.state).Nodup
  not_goal : ∀ n ∈ p.expanded, s.problem.isGoal n.state = false
  explored_eq : p.stats.explored = p.expanded.length

theorem History.mem_nodes {n : Node} (hn : n ∈ p.expanded) : ∃ i : Nat, p.nodes[i]? = some n := by
  obtain ⟨e, -, he⟩ := List.mem_filterMap.1 hn
  obtain ⟨i, -, hi⟩ := Option.bind_eq_some_iff.1 he
  exact ⟨i, hi⟩

theorem History.expanded_eq (h : s.History p) (hx : p.Extends q) : q.expanded = p.expanded := by
  unfold Progress.expanded
  rw [hx.events_eq]
  refine List.filterMap_congr (fun e he => ?_)
  cases hi : e.expansion? with
  | none => rfl
  | some i =>
    have hsome := Array.getElem?_eq_getElem (h.logged e he i hi)
    simp only [Option.bind_some, hsome, hx.nodes _ _ hsome]

theorem History.extends (h : s.History p) (hx : p.Extends q) : s.History q where
  logged e he i hi := by
    have hlt := h.logged e (hx.events_eq ▸ he) i hi
    exact (Array.getElem?_eq_some_iff.1 (hx.nodes _ _ (Array.getElem?_eq_getElem hlt))).1
  closed_iff t := by rw [hx.closed_eq, h.expanded_eq hx, h.closed_iff]
  distinct := by rw [h.expanded_eq hx]; exact h.distinct
  not_goal := by rw [h.expanded_eq hx]; exact h.not_goal
  explored_eq := by rw [hx.explored_eq, h.expanded_eq hx, h.explored_eq]

theorem expanded_settle {i k : Nat} {n : Node} (hn : p.nodes[i]? = some n) :
    (p.settle i n k).expanded = n :: p.expanded := by
  simp only [Progress.expanded, Progress.settle]
  exact List.filterMap_cons_some hn

theorem expanded_skip {i : Nat} {n : Node} : (p.skip i n).expanded = p.expanded :=
  List.filterMap_cons_none rfl

theorem History.openList (h : s.History p) (l : OpenList Nat) : s.History { p with openList := l } :=
  ⟨h.logged, h.closed_iff, h.distinct, h.not_goal, h.explored_eq⟩

theorem History.skip {i : Nat} {n : Node} (h : s.History p) : s.History (p.skip i n) where
  logged e he j hj := by
    rcases List.mem_cons.1 he with rfl | he
    · cases hj
    · exact h.logged e he j hj
  closed_iff := by rw [expanded_skip]; exact h.closed_iff
  distinct := by rw [expanded_skip]; exact h.distinct
  not_goal := by rw [expanded_skip]; exact h.not_goal
  explored_eq := by rw [expanded_skip]; exact h.explored_eq

theorem History.settle {i k : Nat} {n : Node} (h : s.History p) (hn : p.nodes[i]? = some n)
    (hc : p.closed.contains n.state = false) (hg : s.problem.isGoal n.state = false) :
    s.History (p.settle i n k) where
  logged e he j hj := by
    rcases List.mem_cons.1 he with rfl | he
    · cases hj
      exact (Array.getElem?_eq_some_iff.1 hn).1
    · exact h.logged e he j hj
  closed_iff t := by
    rw [expanded_settle hn, List.exists_mem_cons_iff, ← h.closed_iff]
    exact ClosedSet.contains_insert.trans (or_congr_left eq_comm)
  distinct := by
    rw [expanded_settle hn, List.map_cons, List.nodup_cons]
    refine ⟨fun hm => ?_, h.distinct⟩
    obtain ⟨m, hm, hs⟩ := List.mem_map.1 hm
    rw [(h.closed_iff _).2 ⟨m, hm, hs⟩] at hc
    cases hc
  not_goal m hm := by
    rw [expanded_settle hn] at hm
    rcases List.mem_cons.1 hm with rfl | hm
    · exact hg
    · exact h.not_goal m hm
  explored_eq := by
    rw [expanded_settle hn, List.length_cons, ← h.explored_eq]
    rfl

/-- **No state gets lost between two turns.** -/
structure Frontier (s : Setup) (p : Progress) : Prop where
  init : p.Covered s.problem.init 0
  known : s.Known p
  successors : ∀ n ∈ p.expanded, ∀ x ∈ s.problem.successors n.state, p.Covered x.2 (n.cost + 1)

/-- **What holds of a search between two turns.** -/
structure Valid (s : Setup) (p : Progress) : Prop where
  arena : s.Arena p.nodes
  queue : s.Queue p.nodes p.openList
  history : s.History p
  frontier : s.Frontier p

theorem arena_empty : s.Arena #[] := by
  intro i n hn
  simp at hn

theorem queue_empty : s.Queue #[] .empty :=
  ⟨OpenList.sound_empty, rfl, fun _ h => by cases h⟩

theorem valid_start (s : Setup) : s.Valid s.start where
  arena := arena_empty.push .root
  queue := queue_empty.enqueue _
  history := {
    logged := fun _ h => by cases h
    closed_iff := fun t => by
      change (ClosedSet.empty : ClosedSet State).contains t = true ↔ ∃ n ∈ ([] : List Node), n.state = t
      simp [ClosedSet.contains_empty]
    distinct := List.nodup_nil
    not_goal := fun _ h => by cases h
    explored_eq := rfl }
  frontier := {
    init := .inr ⟨_, OpenList.mem_entries_push.2 (.inl rfl), _, Array.getElem?_push_size, rfl, Nat.le_refl _⟩
    known := fun hd t c ht => by
      have hoff : (s.start.openCosts).known? t = if t = s.problem.init then some 0 else none := by
        change OpenCosts.known? (if s.search.suppressDuplicates = true then _ else _) t = _
        rw [if_pos hd, OpenCosts.offer_accepted (Prod.ext rfl rfl), OpenCosts.known?_empty]
      rw [hoff] at ht
      split at ht
      · rename_i hti
        obtain rfl := Option.some.inj ht
        exact .inr ⟨_, OpenList.mem_entries_push.2 (.inl rfl), _, Array.getElem?_push_size, hti.symm, Nat.le_refl _⟩
      · cases ht
    successors := fun _ h => by cases h }

/-- Expanding a node adds it to what was expanded, and its successors change nothing there. -/
theorem History.expanded_cons {i : Nat} {n : Node} (h : s.History p) (hn : p.nodes[i]? = some n)
    (hc : p.closed.contains n.state = false) (hg : s.problem.isGoal n.state = false) (l : List (Nat × State))
    (cost : Nat) : (l.foldl (s.generate i cost) (p.settle i n l.length)).expanded = n :: p.expanded :=
  ((h.settle hn hc hg).expanded_eq (s.extends_foldl _ _ _ _)).trans (expanded_settle hn)

theorem Moved.expanded_eq (hh : s.History p) (h : s.Moved p q) : q.expanded = p.expanded ∨
    ∃ i n rest, p.nodes[i]? = some n ∧ p.openList.Popped (s.entry i n) rest ∧ p.closed.contains n.state = false ∧
      q.expanded = n :: p.expanded := by
  cases h with
  | stale => exact .inl expanded_skip
  | @expanded i n rest hn hpop _ hc hg =>
    exact .inr ⟨i, n, rest, hn, hpop, hc, (hh.openList rest).expanded_cons hn hc hg _ _⟩

theorem Valid.skip {i : Nat} {n : Node} {rest : OpenList Nat} (hv : s.Valid p) (hn : p.nodes[i]? = some n)
    (hpop : p.openList.Popped (s.entry i n) rest) (hq : s.Queue p.nodes rest)
    (hc : p.closed.contains n.state = true) : s.Valid (Progress.skip { p with openList := rest } i n) := by
  have hcov : ∀ t c, p.Covered t c → (Progress.skip { p with openList := rest } i n).Covered t c :=
    fun t c h => h.popped hn hpop rfl hc (fun _ hu => hu)
  have hexp : (Progress.skip { p with openList := rest } i n).expanded = p.expanded := expanded_skip
  refine ⟨hv.arena, hq, (hv.history.openList rest).skip,
    ⟨hcov _ _ hv.frontier.init, fun hd t c ht => ?_, fun m hm x hx => ?_⟩⟩
  · exact hcov t c (hv.frontier.known hd t c ht)
  · exact hcov _ _ (hv.frontier.successors m (hexp ▸ hm) x hx)

theorem Valid.expand {i : Nat} {n : Node} {rest : OpenList Nat} (hv : s.Valid p) (hn : p.nodes[i]? = some n)
    (hpop : p.openList.Popped (s.entry i n) rest) (hq : s.Queue p.nodes rest)
    (hc : p.closed.contains n.state = false) (hg : s.problem.isGoal n.state = false) :
    s.Valid ((s.problem.successors n.state).foldl (s.generate i (n.cost + 1))
      (Progress.settle { p with openList := rest } i n (s.problem.successors n.state).length)) := by
  set l := s.problem.successors n.state with hl
  set mid := Progress.settle { p with openList := rest } i n l.length with hmid
  have hhist : s.History mid := (hv.history.openList rest).settle hn hc hg
  have hcov : ∀ t c, p.Covered t c → mid.Covered t c := fun t c h =>
    h.popped hn hpop rfl (ClosedSet.contains_insert.2 (.inl rfl)) (fun _ hu => ClosedSet.contains_insert.2 (.inr hu))
  have hext := s.extends_foldl i (n.cost + 1) mid l
  have hmidknown : s.Known mid := fun hd t c ht => hcov t c (hv.frontier.known hd t c ht)
  obtain ⟨hknown, hnew⟩ := hmidknown.foldl i (n.cost + 1) l
  refine ⟨Arena.foldl (p := mid) hv.arena hn, Queue.foldl (p := mid) hq l, hhist.extends hext, ?_, hknown, ?_⟩
  · exact hext.covered (hcov _ _ hv.frontier.init)
  · intro m hm x hx
    have hexp : mid.expanded = n :: p.expanded := expanded_settle (p := { p with openList := rest }) hn
    rw [hhist.expanded_eq hext, hexp] at hm
    rcases List.mem_cons.1 hm with rfl | hm
    · exact hnew x hx
    · exact hext.covered (hcov _ _ (hv.frontier.successors m hm x hx))

/-- **A turn keeps all of it.** -/
theorem Valid.more (hv : s.Valid p) (h : s.advance p = .more q) : s.Valid q := by
  cases hv.queue.moved h with
  | stale hn hpop hq hc => exact hv.skip hn hpop hq hc
  | expanded hn hpop hq hc hg => exact hv.expand hn hpop hq hc hg

end Setup
end AStar
end GroundPlanner
