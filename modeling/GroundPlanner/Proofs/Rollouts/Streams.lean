import GroundPlanner.Proofs.Random
import GroundPlanner.Proofs.Rollouts.Budget
/-!
# The rollouts of all streams

A step of a rollout draws the place of an action among those that apply, so if every place can be drawn, some words make
it take any action that applies (`walk_step`).  Put one after another, such words make a rollout walk any approach
(`walk_approach`).  So the ways in which a rollout may end are the ways in which it can end (`canEnd_iff`): over all
streams, rollouts reach exactly the walks within their bound on which no goal is left behind (`rollouts_reach`).
-/
namespace GroundPlanner
namespace Rollouts

open RandomSource (Covers)

/-- **From some stream** a rollout, made after `steps` others and the questions `ks`, ends so with the path `is`. -/
def CanEnd (T : Termination) (p : Problem) (depth : Nat) (ks : List Nat) (steps : Nat) (e : RolloutEnd)
    (is : List Nat) : Prop :=
  ∃ R : RandomSource, (walk T R p steps depth (T.asked ks) R.start p.init []).finish = e ∧
    (walk T R p steps depth (T.asked ks) R.start p.init []).path = is

variable {T : Termination} {p : Problem} {depth steps : Nat} {ks : List Nat} {s t : State} {is : List Nat}
  {e : RolloutEnd}

/-- A step takes the action whose place is drawn. -/
theorem walk_drawn {R : RandomSource} {r r' : R.Memory} {o : Nat × Action} {os : List (Nat × Action)}
    (hT : T.NeverFires) (hg : p.isGoal s = false) (hopts : p.options s = o :: os) {k : Fin (o :: os).length}
    (hdraw : R.below (o :: os).length (Nat.succ_pos _) r = (k, r')) {i : Nat} {a : Action}
    (hk : (o :: os).get k = (i, a)) (done : List Nat) :
    walk T R p steps (depth + 1) (T.asked ks) r s done =
      walk T R p steps depth (T.asked (steps :: ks)) r' (a.successor s) (i :: done) := by
  rw [List.get_eq_getElem] at hk
  rw [walk, hT.check_eq]
  simp only [hg, Bool.false_eq_true, if_false, hopts, hdraw, Fin.getElem_fin, hk]

/-- **Some words make a rollout take an action that applies.** -/
theorem walk_step (hT : T.NeverFires) (hdraws : ∀ n ≤ p.actions.length, Covers n) (steps : Nat) {i : Nat} {a : Action}
    (hg : p.isGoal s = false) (ha : p.actions[i]? = some a) (happ : a.applicable s = true) :
    ∃ ws : List UInt32, ∀ (words rest : List UInt32) (depth : Nat) (ks done : List Nat),
      walk T (.cycle words) p steps (depth + 1) (T.asked ks) (ws ++ rest) s done =
        walk T (.cycle words) p steps depth (T.asked (steps :: ks)) rest (a.successor s) (i :: done) := by
  have hcovers := hdraws _ (p.length_options_le s)
  have hmem : (i, a) ∈ p.options s := Problem.mem_options.2 ⟨ha, happ⟩
  cases hopts : p.options s with
  | nil =>
    rw [hopts] at hmem
    cases hmem
  | cons o os =>
    rw [hopts] at hcovers hmem
    obtain ⟨k, hk, hget⟩ := List.getElem_of_mem hmem
    obtain ⟨ws, hws⟩ := hcovers.exists_words (Nat.succ_pos _) ⟨k, hk⟩
    exact ⟨ws, fun words rest depth ks done => walk_drawn hT hg hopts (hws words rest) hget done⟩

/-- **Some words make a rollout walk an approach.** -/
theorem walk_approach (hT : T.NeverFires) (hdraws : ∀ n ≤ p.actions.length, Covers n) (steps : Nat)
    (h : p.Approach s is t) :
    ∃ ws : List UInt32, ∀ (words rest : List UInt32) (depth : Nat) (ks done : List Nat), ∃ ks',
      walk T (.cycle words) p steps (is.length + depth) (T.asked ks) (ws ++ rest) s done =
        walk T (.cycle words) p steps depth (T.asked ks') rest t (is.reverse ++ done) := by
  induction h with
  | nil s =>
    refine ⟨[], fun words rest depth ks done => ⟨ks, ?_⟩⟩
    rw [List.length_nil, Nat.zero_add]
    rfl
  | @cons s t i is a hg ha happ _ ih =>
    obtain ⟨ws, hws⟩ := walk_step hT hdraws steps hg ha happ
    obtain ⟨ws', hws'⟩ := ih
    refine ⟨ws ++ ws', fun words rest depth ks done => ?_⟩
    obtain ⟨ks', hrest⟩ := hws' words rest depth (steps :: ks) (i :: done)
    refine ⟨ks', ?_⟩
    rw [List.append_assoc, List.length_cons, Nat.add_right_comm, hws, hrest, List.reverse_cons, List.append_assoc,
      List.singleton_append]

/-! ## Ends -/

theorem Ended.exists_approach (h : Ended p depth s e is) :
    ∃ t d, p.Approach s is t ∧ depth = is.length + d ∧ Ended p d t e [] := by
  cases h with
  | goal hw hlen hg =>
    exact ⟨_, depth - is.length, hw, by omega, .goal (.nil _) (by rw [List.length_nil]; omega) hg⟩
  | deadEnd hw hlen hg hnone =>
    exact ⟨_, depth - is.length, hw, by omega, .deadEnd (.nil _) (by rw [List.length_nil]; omega) hg hnone⟩
  | depthLimit hw hlen => exact ⟨_, 0, hw, hlen.symm, .depthLimit (.nil _) rfl⟩
  | timeLimit hw hlen =>
    exact ⟨_, depth - is.length, hw, by omega, .timeLimit (.nil _) (by rw [List.length_nil]; omega)⟩

/-- **A rollout that may end without a further step does**, unless it is time that would end it. -/
theorem walk_end {R : RandomSource} (hT : T.NeverFires) (h : Ended p depth t e []) (he : e ≠ .timeLimit)
    (steps : Nat) (ks : List Nat) (r : R.Memory) (done : List Nat) :
    (walk T R p steps depth (T.asked ks) r t done).finish = e ∧
    (walk T R p steps depth (T.asked ks) r t done).path = done.reverse := by
  cases h with
  | goal hw hlen hg =>
    cases hw
    obtain ⟨d, rfl⟩ := Nat.exists_eq_succ_of_ne_zero (Nat.ne_of_gt hlen)
    rw [walk, hT.check_eq]
    simp only [hg, if_true, and_self]
  | deadEnd hw hlen hg hnone =>
    cases hw
    obtain ⟨d, rfl⟩ := Nat.exists_eq_succ_of_ne_zero (Nat.ne_of_gt hlen)
    rw [walk, hT.check_eq]
    simp only [hg, Bool.false_eq_true, if_false, hnone, and_self]
  | depthLimit _ hlen =>
    obtain rfl : 0 = depth := hlen
    exact ⟨rfl, rfl⟩
  | timeLimit => exact absurd rfl he

/-- **A rollout can end in each way in which it may end**, but for time. -/
theorem canEnd_iff (hT : T.NeverFires) (hdraws : ∀ n ≤ p.actions.length, Covers n) :
    CanEnd T p depth ks steps e is ↔ Ended p depth p.init e is ∧ e ≠ .timeLimit := by
  constructor
  · rintro ⟨R, rfl, rfl⟩
    obtain ⟨js, hpath, hend⟩ := walk_ended T R p steps depth (T.asked ks) R.start p.init []
    rw [List.reverse_nil, List.nil_append] at hpath
    exact ⟨hpath ▸ hend, (walk_asked hT steps depth ks R.start p.init []).1⟩
  · rintro ⟨hend, he⟩
    obtain ⟨t, d, hw, rfl, hlast⟩ := hend.exists_approach
    obtain ⟨ws, hws⟩ := walk_approach hT hdraws steps hw
    obtain ⟨ks', hwalk⟩ := hws ws [] d ks []
    obtain ⟨hfinish, hpath⟩ := walk_end (R := .cycle ws) hT hlast he steps ks' [] (is.reverse ++ [])
    rw [List.append_nil] at hwalk
    refine ⟨.cycle ws, (congrArg Walk.finish hwalk).trans hfinish, (congrArg Walk.path hwalk).trans ?_⟩
    rw [hpath, List.append_nil, List.reverse_reverse]

/-! ## The walks that rollouts reach -/

theorem ended_goal_iff : Ended p depth s .goal is ↔ ∃ t, p.Walk s is t ∧ is.length < depth ∧ p.isGoal t = true ∧
    ∀ u ∈ (p.statesAlong s is).dropLast, p.isGoal u = false := by
  constructor
  · intro h
    cases h with
    | goal hw hlen hg =>
      obtain ⟨hw, hgoals⟩ := Problem.approach_iff.1 hw
      exact ⟨_, hw, hlen, hg, hgoals⟩
  · rintro ⟨t, hw, hlen, hg, hgoals⟩
    exact .goal (Problem.approach_iff.2 ⟨hw, hgoals⟩) hlen hg

theorem ended_deadEnd_iff : Ended p depth s .deadEnd is ↔ ∃ t, p.Walk s is t ∧ is.length < depth ∧
    (∀ u ∈ p.statesAlong s is, p.isGoal u = false) ∧ ∀ a ∈ p.actions, a.applicable t = false := by
  constructor
  · intro h
    cases h with
    | deadEnd hw hlen hg hnone =>
      obtain ⟨hw, hgoals⟩ := Problem.approach_iff.1 hw
      refine ⟨_, hw, hlen, fun u hu => ?_, Problem.options_eq_nil_iff.1 hnone⟩
      rcases hw.mem_statesAlong_iff.1 hu with hu | rfl
      · exact hgoals u hu
      · exact hg
  · rintro ⟨t, hw, hlen, hgoals, hnone⟩
    have hall := fun u => hgoals u ∘ hw.mem_statesAlong_iff.2
    exact .deadEnd (Problem.approach_iff.2 ⟨hw, fun u hu => hall u (.inl hu)⟩) hlen (hall t (.inr rfl))
      (Problem.options_eq_nil_iff.2 hnone)

theorem ended_depthLimit_iff : Ended p depth s .depthLimit is ↔ ∃ t, p.Walk s is t ∧ is.length = depth ∧
    ∀ u ∈ (p.statesAlong s is).dropLast, p.isGoal u = false := by
  constructor
  · intro h
    cases h with
    | depthLimit hw hlen =>
      obtain ⟨hw, hgoals⟩ := Problem.approach_iff.1 hw
      exact ⟨_, hw, hlen, hgoals⟩
  · rintro ⟨t, hw, hlen, hgoals⟩
    exact .depthLimit (Problem.approach_iff.2 ⟨hw, hgoals⟩) hlen

/-- **Over all streams, rollouts reach exactly the walks within their bound** that leave no goal behind: those to a
goal, those to a state in which nothing can be done, and those that are as long as the bound, in a goal or not.  So some
stream makes a rollout of a shortest plan exactly if that is shorter than the bound. -/
theorem rollouts_reach (hT : T.NeverFires) (hdraws : ∀ n ≤ p.actions.length, Covers n) (depth : Nat) (ks : List Nat)
    (steps : Nat) :
    (∀ is, CanEnd T p depth ks steps .goal is ↔ ∃ t, (Plan.mk is).simulate p = .ok t ∧ is.length < depth ∧
      p.isGoal t = true ∧ ∀ u ∈ (p.statesAlong p.init is).dropLast, p.isGoal u = false) ∧
    (∀ is, CanEnd T p depth ks steps .deadEnd is ↔ ∃ t, (Plan.mk is).simulate p = .ok t ∧ is.length < depth ∧
      (∀ u ∈ p.statesAlong p.init is, p.isGoal u = false) ∧ ∀ a ∈ p.actions, a.applicable t = false) ∧
    (∀ is, CanEnd T p depth ks steps .depthLimit is ↔ ∃ t, (Plan.mk is).simulate p = .ok t ∧ is.length = depth ∧
      ∀ u ∈ (p.statesAlong p.init is).dropLast, p.isGoal u = false) ∧
    (∀ is, ¬ CanEnd T p depth ks steps .timeLimit is) ∧
    ∀ plan : Plan, plan.validate p = .ok () →
      (∀ other : Plan, other.validate p = .ok () → plan.length ≤ other.length) →
      (CanEnd T p depth ks steps .goal plan.steps ↔ plan.length < depth) := by
  simp only [Plan.simulate_eq_ok_iff, Plan.validate_eq_ok_iff, canEnd_iff hT hdraws]
  refine ⟨fun is => ?_, fun is => ?_, fun is => ?_, fun is h => h.2 rfl, fun plan hvalid hshortest => ?_⟩
  · exact (and_iff_left nofun).trans ended_goal_iff
  · exact (and_iff_left nofun).trans ended_deadEnd_iff
  · exact (and_iff_left nofun).trans ended_depthLimit_iff
  · refine (and_iff_left nofun).trans (ended_goal_iff.trans ⟨fun ⟨_, _, hlen, _⟩ => hlen, fun hlen => ?_⟩)
    obtain ⟨t, hw, hg⟩ := hvalid
    have hgoals := hw.not_goal_of_shortest (fun js u hjs hu => hshortest ⟨js⟩ ⟨u, hjs, hu⟩)
    exact ⟨t, hw, hlen, hg, hgoals⟩

/-- Two steps lead down the corridor.  With room for three, some stream makes a rollout of them; with room for two, all
rollouts of them end at the bound, though in the goal. -/
theorem rollouts_reach_corridor : ∃ p, (Families.corridor 2).build = .ok p ∧
    CanEnd .never p 3 [] 0 .goal [0, 2] ∧ CanEnd .never p 2 [] 0 .depthLimit [0, 2] ∧
    ¬ CanEnd .never p 2 [] 0 .goal [0, 2] := by
  obtain ⟨p, hb, hp⟩ := Draft.exists_build (d := Families.corridor 2) (fun p => p.actions.length ≤ UInt32.size &&
    (match (Plan.mk [0, 2]).simulate p with
      | .ok t => p.isGoal t
      | .error _ => false) && (p.statesAlong p.init [0, 2]).dropLast.all (fun u => !p.isGoal u)) (by decide +kernel)
  simp only [Bool.and_eq_true, decide_eq_true_eq, List.all_eq_true, Bool.not_eq_true'] at hp
  obtain ⟨⟨hsize, hgoal⟩, hgoals⟩ := hp
  have hdraws : ∀ n ≤ p.actions.length, Covers n := fun n hn => RandomSource.covers_of_le (Nat.le_trans hn hsize)
  split at hgoal
  · rename_i t ht
    have hroom := rollouts_reach Termination.neverFires_never hdraws 3 [] 0
    have hbound := rollouts_reach Termination.neverFires_never hdraws 2 [] 0
    refine ⟨p, hb, (hroom.1 _).2 ⟨t, ht, by decide, hgoal, hgoals⟩, (hbound.2.2.1 _).2 ⟨t, ht, rfl, hgoals⟩,
      fun h => ?_⟩
    obtain ⟨-, -, hlt, -⟩ := (hbound.1 _).1 h
    exact absurd hlt (by decide)
  · cases hgoal

end Rollouts
end GroundPlanner
