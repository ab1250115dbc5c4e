import GroundPlanner.Proofs.Checked.AStar
import GroundPlanner.Proofs.Checked.Rollouts
/-!
# What is looked up in a built problem is there

Building resolves names to places in the fact table, so all facts of a built problem stand in it, and whatever is made
of the problem keeps to what was allocated for it: states to their words, estimates to their labels and operators,
searches to their nodes and to the lists of actions (`Draft.build_checked`).
-/
namespace GroundPlanner

/-- The initial state is made of resolved names, each within the words. -/
theorem Draft.build_init {d : Draft} {p : Problem} (h : d.build = .ok p) :
    ∃ fs, resolve d.table .init d.init = .ok fs ∧ State.ofFacts? p.numFacts fs = some p.init := by
  unfold build at h
  obtain ⟨init, hinit, h⟩ := bind_eq_ok.1 h
  obtain ⟨goal, -, h⟩ := bind_eq_ok.1 h
  obtain ⟨goalNeg, -, h⟩ := bind_eq_ok.1 h
  obtain ⟨actions, -, h⟩ := bind_eq_ok.1 h
  cases h
  exact ⟨init, hinit, State.ofFacts?_eq_some (resolve_lt hinit)⟩

/-- **Nothing that is looked up in a built problem is missing.**  Its facts stand in its table, and so do those of all
states that its actions lead to, applicable or not, which are as wide as the initial state.  Looking up every word,
label, mark, operator, node and action before it is used then changes nothing: the initial state and what actions lead
to, estimates of any name, and searches by A* and by rollouts, whatever their settings and however they go, all have
their results. -/
theorem Draft.build_checked {d : Draft} {p : Problem} (h : d.build = .ok p) :
    p.InTable ∧
    (∃ fs, resolve d.table .init d.init = .ok fs ∧ State.ofFacts? p.numFacts fs = some p.init) ∧
    (∀ as : List Action, (∀ a ∈ as, a ∈ p.actions) → ∃ s, s = as.foldl (fun t a => a.successor t) p.init ∧
      s.words = p.init.words ∧ (∀ f, s.contains f = true → f < p.numFacts) ∧
      as.foldlM (fun t a => a.successor? t) p.init = some s ∧ p.successors? s = some (p.successors s)) ∧
    (∀ name s goal, (Relaxation.ofProblem name p).estimate? s goal =
      some ((Relaxation.ofProblem name p).estimate s goal)) ∧
    (∀ (a : AStar) T, a.search? T p = some (a.search T p)) ∧
    ∀ (b : Rollouts) T R, b.searchWith? T R p = some (b.searchWith T R p) := by
  have hp := build_inTable h
  refine ⟨hp, build_init h, fun as has => ?_, Relaxation.estimate?_ofProblem hp, AStar.search?_eq_some hp,
    Rollouts.searchWith?_eq_some hp⟩
  obtain ⟨hfits, hchecked⟩ := hp.fits_init.foldl hp has
  exact ⟨_, rfl, hfits.words_eq, hfits.lt, hchecked, hp.successors?_eq_some hfits.words_eq⟩

/-- Two presses of the lamp, neither of which applies, and a plan of two actions. -/
theorem Draft.build_checked_lamp : ∃ p, Families.conditionalLamp.build = .ok p ∧
    (∃ press ∈ p.actions, ∃ s, [press, press].foldlM (fun t a => a.successor? t) p.init = some s ∧
      s.words = p.init.words) ∧
    (Relaxation.ofProblem .fastForward p).estimate? p.init p.goal = some (.finite 2) := by
  obtain ⟨p, hb, hp⟩ := exists_build (d := Families.conditionalLamp)
    (fun p => p.actions.any (fun a => a.name == "press") &&
      (Relaxation.ofProblem .fastForward p).estimate p.init p.goal == .finite 2) (by decide +kernel)
  rw [Bool.and_eq_true, List.any_eq_true, beq_iff_eq] at hp
  obtain ⟨⟨press, hpress, -⟩, hestimate⟩ := hp
  obtain ⟨-, -, hactions, hestimates, -⟩ := build_checked hb
  obtain ⟨s, -, hwords, -, hs, -⟩ := hactions [press, press] (by simpa using hpress)
  refine ⟨p, hb, ⟨press, hpress, s, hs, hwords⟩, ?_⟩
  rw [hestimates, hestimate]

end GroundPlanner
