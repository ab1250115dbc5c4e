import GroundPlanner.Proofs.Checked.State
/-!
# Rollouts among the applicable actions

A walk that looks up the place which it draws in the list of applicable actions, and the number that stands there in the
list of all actions.  The place is drawn below the length of the one list and the number is that of an entry of the
other, so a walk within the words of its states has the result of the walk (`walk?_eq_some`), and so have whole searches
(`searchWith?_eq_some`).
-/
namespace GroundPlanner
namespace Rollouts

variable {T : Termination} {R : RandomSource} {p : Problem}

/-- A walk of at most `depth` steps from `s`, after the steps `done` (latest first) and `steps` rollouts. -/
def walk? (T : Termination) (R : RandomSource) (p : Problem) (steps : Nat) :
    Nat → T.Memory → R.Memory → State → List Nat → Option (Walk T R)
  | 0, m, r, _, done => some ⟨.depthLimit, done.reverse, m, r⟩
  | depth + 1, m, r, s, done =>
    match T.check m steps with
    | (true, m) => some ⟨.timeLimit, done.reverse, m, r⟩
    | (false, m) =>
      if p.isGoal s then some ⟨.goal, done.reverse, m, r⟩
      else match p.applicable s with
        | [] => some ⟨.deadEnd, done.reverse, m, r⟩
        | i :: is => do
          let (k, r) := R.below (i :: is).length (Nat.succ_pos _) r
          let chosen ← (i :: is)[k.val]?
          let a ← p.actions[chosen]?
          walk? T R p steps depth m r (← a.successor? s) (chosen :: done)

/-- Rollouts until the termination stops them, at most `n`. -/
def run? (T : Termination) (R : RandomSource) (problem : Problem) (maxDepth : Nat) :
    Nat → T.Memory → R.Memory → Progress → Option (Progress × R.Memory)
  | 0, _, r, p => some (p, r)
  | n + 1, m, r, p =>
    match T.check m p.stats.simulations with
    | (true, _) => some (p, r)
    | (false, m) => do
      let w ← walk? T R problem p.stats.simulations maxDepth m r problem.init []
      run? T R problem maxDepth n w.memory w.random (p.record w.finish w.path)

/-- Searches with the words of a source, and gives what the source remembers afterwards. -/
def searchWith? (b : Rollouts) (T : Termination) (R : RandomSource) (p : Problem) :
    Option (Except PlannerError (Report × R.Memory)) :=
  match b.enter T p with
  | .error e => some (.error e)
  | .ok () => do
    let (final, r) ← run? T R p b.maxDepth b.maxSimulations T.start R.start .start
    return .ok (b.report final, r)

/-- The number drawn among the applicable actions is that of the option drawn, and its action stands there. -/
theorem drawn_eq {s : State} {o : Nat × Action} {os : List (Nat × Action)} (hoptions : p.options s = o :: os)
    (r : R.Memory) {drawn : Fin (o :: os).length × R.Memory} (h : R.below (o :: os).length (Nat.succ_pos _) r = drawn)
    {place : Fin (o.1 :: os.map Prod.fst).length × R.Memory}
    (h' : R.below (o.1 :: os.map Prod.fst).length (Nat.succ_pos _) r = place) :
    place.2 = drawn.2 ∧ (o.1 :: os.map Prod.fst)[place.1.val]? = some (o :: os)[drawn.1].1 ∧
      p.actions[(o :: os)[drawn.1].1]? = some (o :: os)[drawn.1].2 := by
  subst h h'
  -- Both lists are equally long, so the source draws the same place in both.
  have hlength : (o.1 :: os.map Prod.fst).length = (o :: os).length := congrArg (· + 1) (List.length_map Prod.fst)
  obtain ⟨hplace, hrandom⟩ := below_congr (Q := R) hlength (Nat.succ_pos _) (Nat.succ_pos _) r
  refine ⟨hrandom, ?_, (Problem.mem_options (s := s).1 ?_).1⟩
  · change ((o :: os).map Prod.fst)[_]? = _
    rw [List.getElem?_map, hplace, List.getElem?_eq_getElem (R.below (o :: os).length _ r).1.isLt]
    rfl
  · rw [hoptions]
    exact List.getElem_mem (R.below (o :: os).length _ r).1.isLt

/-- **A walk looks up nothing that is not there**, and is the walk. -/
theorem walk?_eq_some (hp : p.InTable) (steps depth : Nat) {s : State} (hs : s.words = p.init.words) (m : T.Memory)
    (r : R.Memory) (done : List Nat) :
    walk? T R p steps depth m r s done = some (walk T R p steps depth m r s done) := by
  induction depth generalizing s m r done with
  | zero => rfl
  | succ depth ih =>
    unfold walk? walk
    obtain ⟨stop, m'⟩ := T.check m steps
    cases stop with
    | true => rfl
    | false =>
      simp only [Problem.applicable]
      split
      · rfl
      · cases hoptions : p.options s with
        | nil => rfl
        | cons o os =>
          simp only [List.map_cons]
          generalize hdrawn : R.below (o :: os).length (Nat.succ_pos _) r = drawn
          generalize hplace : R.below (o.1 :: os.map Prod.fst).length (Nat.succ_pos _) r = place
          obtain ⟨hrandom, hchosen, ha⟩ := drawn_eq hoptions r hdrawn hplace
          have hnext := hp.successor?_eq_some hs (List.mem_of_getElem? ha)
          simp only [hchosen, ha, hnext, hrandom, Option.bind_eq_bind, Option.bind_some]
          exact ih ((Action.words_successor _ s).trans hs) m' drawn.2 _

/-- **Rollouts look up nothing that is not there.** -/
theorem run?_eq_some (hp : p.InTable) (depth n : Nat) (m : T.Memory) (r : R.Memory) (f : Progress) :
    run? T R p depth n m r f = some (run T R p depth n m r f) := by
  induction n generalizing m r f with
  | zero => rfl
  | succ n ih =>
    unfold run? run
    obtain ⟨stop, m'⟩ := T.check m f.stats.simulations
    cases stop with
    | true => rfl
    | false =>
      simp only [walk?_eq_some hp _ _ rfl, Option.bind_eq_bind, Option.bind_some]
      exact ih _ _ _

/-- **A search by rollouts looks up nothing that is not there**, and is the search. -/
theorem searchWith?_eq_some (hp : p.InTable) (b : Rollouts) (T : Termination) (R : RandomSource) :
    b.searchWith? T R p = some (b.searchWith T R p) := by
  unfold searchWith? searchWith
  cases b.enter T p with
  | error e => rfl
  | ok u =>
    simp only [run?_eq_some hp, Option.bind_eq_bind, Option.bind_some]
    rfl

end Rollouts
end GroundPlanner
