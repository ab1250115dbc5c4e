import GroundPlanner.Proofs.AStar.Frontier
import Mathlib.Algebra.Group.Nat.Defs
import Mathlib.Data.List.Perm.Subperm
/-!
# Whole runs of a search

`Ends` is the loop without a bound on its turns.  Every turn that does not end the search lowers `potential`, because
at most all states of the problem's width are expanded, and `turns` is above the potential of the start: so the bound
is never what ends a search (`ending_ends`), and an invariant of the turns holds where the search ends (`Ends.inv`).
-/
namespace GroundPlanner
namespace AStar
namespace Setup

variable {s : Setup} {T : Termination} {m : T.Memory} {o : SearchOutcome} {p q f : Progress}

/-- **How a search goes on** from a progress: it is stopped, or takes its last turn, or takes a turn and goes on. -/
inductive Ends (s : Setup) (T : Termination) : T.Memory → Progress → SearchOutcome → Progress → Prop where
  | stopped {m m' : T.Memory} {p : Progress} (hs : T.check m p.stats.explored = (true, m')) :
    Ends s T m p .timedOut p
  | last {m m' : T.Memory} {p f : Progress} {o : SearchOutcome} (hs : T.check m p.stats.explored = (false, m'))
      (ha : s.advance p = .done o f) : Ends s T m p o f
  | turn {m m' : T.Memory} {p q f : Progress} {o : SearchOutcome} (hs : T.check m p.stats.explored = (false, m'))
      (ha : s.advance p = .more q) (he : Ends s T m' q o f) : Ends s T m p o f

theorem Ends.unique {o' : SearchOutcome} {f' : Progress} (h : s.Ends T m p o f) (h' : s.Ends T m p o' f') :
    o = o' ∧ f = f' := by
  induction h with
  | stopped hs =>
    cases h' with
    | stopped => exact ⟨rfl, rfl⟩
    | last hs' => simp [hs] at hs'
    | turn hs' => simp [hs] at hs'
  | last hs ha =>
    cases h' with
    | stopped hs' => simp [hs] at hs'
    | last _ ha' =>
      rw [ha] at ha'
      cases ha'
      exact ⟨rfl, rfl⟩
    | turn _ ha' =>
      rw [ha] at ha'
      cases ha'
  | turn hs ha _ ih =>
    cases h' with
    | stopped hs' => simp [hs] at hs'
    | last _ ha' =>
      rw [ha] at ha'
      cases ha'
    | turn hs' ha' he' =>
      rw [ha] at ha'
      cases ha'
      rw [hs] at hs'
      cases hs'
      exact ih he'

/-- **What turns keep holds where the search ends**, before its last turn. -/
theorem Ends.inv {I : Progress → Prop} (hstep : ∀ p q, I p → s.advance p = .more q → I q) (h : s.Ends T m p o f)
    (hp : I p) : ∃ q, I q ∧ (o = .timedOut ∧ f = q ∨ s.advance q = .done o f) := by
  induction h with
  | stopped => exact ⟨_, hp, .inl ⟨rfl, rfl⟩⟩
  | last _ ha => exact ⟨_, hp, .inr ha⟩
  | turn _ ha _ ih => exact ih (hstep _ _ hp ha)

/-- The open list and the expansions that are left, all bit patterns counted as states. -/
def potential (s : Setup) (p : Progress) : Nat :=
  p.openList.size + s.problem.actions.length * (2 ^ s.problem.init.capacity - p.stats.explored)

theorem Generated.size_le {i cost : Nat} {x : Nat × State} (h : s.Generated i cost p x q) :
    q.openList.size ≤ p.openList.size + 1 := by
  cases h with
  | closed => exact Nat.le_succ _
  | known => exact Nat.le_succ _
  | pushed => exact Nat.le_refl _

theorem size_foldl_le (s : Setup) (i cost : Nat) (l : List (Nat × State)) (p : Progress) :
    (l.foldl (s.generate i cost) p).openList.size ≤ p.openList.size + l.length := by
  induction l generalizing p with
  | nil => exact Nat.le_refl _
  | cons x l ih =>
    have hx := (s.generated i cost p x).size_le
    have hl := ih (s.generate i cost p x)
    simp only [List.foldl_cons, List.length_cons]
    omega

/-- Different states of one width are at most as many as there are bit patterns. -/
theorem length_le_of_nodup {w : Nat} {l : List State} (hw : ∀ t ∈ l, t.words = w) (hd : l.Nodup) :
    l.length ≤ 2 ^ (64 * w) := by
  have hbits : (l.map State.bits).Nodup :=
    hd.map_on (fun t ht u hu hb => State.ext_bits ((hw t ht).trans (hw u hu).symm) hb)
  have hsub : l.map State.bits ⊆ List.range (2 ^ (64 * w)) := by
    intro b hb
    obtain ⟨t, ht, rfl⟩ := List.mem_map.1 hb
    have hlt := t.bits_lt
    rw [Nat.one_shiftLeft, hw t ht] at hlt
    exact List.mem_range.2 hlt
  have hle := (hbits.subperm hsub).length_le
  rwa [List.length_map, List.length_range] at hle

theorem Valid.reachable_expanded (hv : s.Valid p) {n : Node} (hn : n ∈ p.expanded) : s.problem.Reachable n.state := by
  obtain ⟨i, hi⟩ := History.mem_nodes hn
  exact hv.arena.reachable hi

theorem Valid.explored_le (hv : s.Valid p) : p.stats.explored ≤ 2 ^ s.problem.init.capacity := by
  have hw : ∀ t ∈ p.expanded.map Node.state, t.words = s.problem.init.words := by
    intro t ht
    obtain ⟨n, hn, rfl⟩ := List.mem_map.1 ht
    exact (hv.reachable_expanded hn).words_eq
  have hle := length_le_of_nodup hw hv.history.distinct
  rwa [List.length_map, ← hv.history.explored_eq] at hle

/-- **A turn that does not end the search lowers the potential.** -/
theorem Valid.potential_lt (hv : s.Valid p) (h : s.advance p = .more q) : s.potential q < s.potential p := by
  have hle := (hv.more h).explored_le
  cases hv.queue.moved h with
  | stale hn hpop hq hc =>
    have hsize := hpop.size_eq
    simp only [potential, Progress.skip]
    omega
  | @expanded i n rest hn hpop hq hc hg =>
    have hsize := hpop.size_eq
    have hfold := s.size_foldl_le i (n.cost + 1) (s.problem.successors n.state)
      (Progress.settle { p with openList := rest } i n (s.problem.successors n.state).length)
    have hlen := s.problem.length_successors_le n.state
    have hexp := (s.extends_foldl i (n.cost + 1) (Progress.settle { p with openList := rest } i n
      (s.problem.successors n.state).length) (s.problem.successors n.state)).explored_eq
    simp only [potential, hexp] at hle ⊢
    simp only [Progress.settle] at hfold hle ⊢
    -- The expansion takes one of the expansions left and adds at most one entry for each action.
    have hleft : 2 ^ s.problem.init.capacity - p.stats.explored =
        2 ^ s.problem.init.capacity - (p.stats.explored + 1) + 1 := by omega
    rw [hleft, Nat.mul_succ]
    omega

theorem run_ends (n : Nat) (hv : s.Valid p) (hn : s.potential p < n) :
    s.Ends T m p (s.run T n m p).1 (s.run T n m p).2 := by
  induction n generalizing m p with
  | zero => exact absurd hn (Nat.not_lt_zero _)
  | succ n ih =>
    unfold run
    split
    · rename_i hs
      exact .stopped hs
    · rename_i hs
      split
      · rename_i q ha
        exact .turn hs ha (ih (hv.more ha) (Nat.lt_of_lt_of_le (hv.potential_lt ha) (Nat.le_of_lt_succ hn)))
      · rename_i ha
        exact .last hs ha

end Setup

/-- How the search of a problem ends, and the progress made until then. -/
def ending (a : AStar) (T : Termination) (p : Problem) : SearchOutcome × Progress :=
  (a.setup p).run T (a.setup p).turns T.start (a.setup p).start

/-- The states expanded by a search, in order. -/
def expandedStates (a : AStar) (T : Termination) (p : Problem) : List State :=
  ((a.ending T p).2.expanded.map Node.state).reverse

variable {a : AStar} {T : Termination} {p : Problem} {r : Report}

/-- What a search is not refused for. -/
theorem check_eq_ok_iff : a.check T p = .ok () ↔ Problem.checkSupported p.requirements = .ok () ∧
    validWeight a.weight = true ∧ T.timeLimit ≠ some .zero := by
  unfold check
  cases Problem.checkSupported p.requirements with
  | error e => simp [bind, Except.bind]
  | ok u =>
    cases validWeight a.weight <;> by_cases ht : T.timeLimit = some .zero <;>
      simp [ht, bind, Except.bind, throw, throwThe, MonadExceptOf.throw, pure, Except.pure]

theorem search_eq_ok_iff : a.search T p = .ok r ↔
    a.check T p = .ok () ∧ r = .ofProgress (a.ending T p).1 (a.ending T p).2 := by
  unfold search
  cases h : a.check T p with
  | error e => simp [bind, Except.bind]
  | ok u =>
    change Except.ok _ = _ ↔ _
    rw [Except.ok.injEq, eq_comm]
    exact (and_iff_right rfl).symm

theorem potential_lt_turns (a : AStar) (p : Problem) :
    (a.setup p).potential (a.setup p).start < (a.setup p).turns := by
  change 1 + p.actions.length * 2 ^ p.init.capacity < 2 + p.actions.length <<< p.init.capacity
  rw [Nat.shiftLeft_eq]
  omega

/-- **The bound on the turns is never what ends a search.** -/
theorem ending_ends (a : AStar) (T : Termination) (p : Problem) :
    (a.setup p).Ends T T.start (a.setup p).start (a.ending T p).1 (a.ending T p).2 :=
  Setup.run_ends _ (Setup.valid_start _) (a.potential_lt_turns p)

/-- **Before its last turn a search is valid.** -/
theorem ending_valid (a : AStar) (T : Termination) (p : Problem) :
    ∃ q, (a.setup p).Valid q ∧ ((a.ending T p).1 = .timedOut ∧ (a.ending T p).2 = q ∨
      (a.setup p).Finished q (a.ending T p).1 (a.ending T p).2) := by
  obtain ⟨q, hv, h⟩ := (a.ending_ends T p).inv (fun _ _ hv h => hv.more h) (Setup.valid_start _)
  exact ⟨q, hv, h.imp id hv.queue.finished⟩

end AStar
end GroundPlanner
