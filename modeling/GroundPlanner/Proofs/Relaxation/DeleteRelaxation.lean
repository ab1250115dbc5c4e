import GroundPlanner.Proofs.Relaxation.Consistency
import GroundPlanner.Proofs.Relaxation.Grounded
/-!
# The delete relaxation

Without deletes and negative literals a problem is one more problem (`Problem.relaxed`), and a relaxed plan is a walk to
its goal.  Operators in order are such a walk (`Ordered.walk`): each applies its action, whose other effects do no harm.
So the estimate by a relaxed plan counts the distinct actions of a walk (`Relaxation.estimate_relaxed_walk`).  It is not
the length of one: where effects of one action enable one another, the action is counted once and has to be applied
more often (`Relaxation.estimate_repeated_action`).
-/
namespace GroundPlanner

def Condition.relaxed (c : Condition) : Condition :=
  ⟨c.positive, []⟩

def GuardedEffect.relaxed (e : GuardedEffect) : GuardedEffect :=
  ⟨e.guard.relaxed, e.effect.add, []⟩

def Action.relaxed (a : Action) : Action :=
  ⟨a.name, a.precondition.relaxed, a.effects.map GuardedEffect.relaxed⟩

/-- **The problem without deletes and negative literals**, for some goal. -/
def Problem.relaxed (p : Problem) (goal : Condition) : Problem :=
  { p with goal := goal.relaxed, actions := p.actions.map Action.relaxed }

variable {p : Problem} {goal : Condition} {s t : State} {name : HeuristicName} {is : List Nat}

theorem State.satisfies_relaxed {c : Condition} :
    s.satisfies c.relaxed = true ↔ ∀ f ∈ c.positive, s.contains f = true := by
  rw [satisfies_iff]
  exact and_iff_left fun _ h => absurd h List.not_mem_nil

namespace Problem

theorem isGoal_relaxed : (p.relaxed goal).isGoal s = true ↔ ∀ f ∈ goal.positive, s.contains f = true :=
  State.satisfies_relaxed

theorem InTable.relaxed (hp : p.InTable) (hgoal : ∀ f ∈ goal.positive, f < p.numFacts) :
    (p.relaxed goal).InTable where
  init := hp.init
  width := hp.width
  goal := ⟨hgoal, fun _ h => absurd h List.not_mem_nil⟩
  actions b hb := by
    obtain ⟨a, ha, rfl⟩ := List.mem_map.1 hb
    have hnil : ∀ f ∈ ([] : List FactId), f < p.numFacts := fun _ h => absurd h List.not_mem_nil
    refine ⟨⟨(hp.actions a ha).1.1, hnil⟩, fun e' he' => ?_⟩
    obtain ⟨e, he, rfl⟩ := List.mem_map.1 he'
    exact ⟨⟨((hp.actions a ha).2 e he).1.1, hnil⟩, ((hp.actions a ha).2 e he).2.1, hnil⟩

end Problem

namespace Operator

/-- The operators leave out what the relaxation leaves out. -/
theorem ofActions_relaxed (actions : List Action) : ofActions (actions.map Action.relaxed) = ofActions actions := by
  unfold ofActions
  rw [List.zipIdx_map, List.flatMap_map]
  refine List.flatMap_congr fun x _ => ?_
  exact List.filterMap_map

theorem exists_of_mem_ofActions {actions : List Action} {o : Operator} (ho : o ∈ ofActions actions) :
    ∃ a e, actions[o.action]? = some a ∧ e ∈ a.effects ∧ e.effect.add ≠ [] ∧
      o = ⟨o.action, ascending (a.precondition.positive ++ e.guard.positive), e.effect.add⟩ := by
  obtain ⟨⟨a, i⟩, ha, ho⟩ := List.mem_flatMap.1 ho
  obtain ⟨e, he, ho⟩ := List.mem_filterMap.1 ho
  unfold ofEffect at ho
  split at ho
  · cases ho
  · rename_i hne
    obtain rfl := Option.some.inj ho
    exact ⟨a, e, List.mem_zipIdx_iff_getElem?.1 ha, he, fun h => hne (by rw [h]; rfl), rfl⟩

theorem lt_of_mem_add {o : Operator} (hp : p.InTable) (ho : o ∈ ofActions p.actions) :
    ∀ f ∈ o.add, f < p.numFacts := by
  obtain ⟨a, e, ha, he, -, heq⟩ := exists_of_mem_ofActions ho
  rw [heq]
  exact ((hp.actions a (List.mem_of_getElem? ha)).2 e he).2.1

end Operator

theorem Relaxation.ofProblem_relaxed (name : HeuristicName) (p : Problem) (goal : Condition) :
    ofProblem name (p.relaxed goal) = ofProblem name p :=
  congrArg (Relaxation.mk name p.numFacts) (Operator.ofActions_relaxed p.actions)

/-! ## Walks without deletes -/

theorem State.contains_foldl_add {es : List Effect} {f : FactId} (hdel : ∀ e ∈ es, e.delete = [])
    (h : s.contains f = true ∨ f < s.capacity ∧ ∃ e ∈ es, f ∈ e.add) : (es.foldl apply s).contains f = true := by
  induction es generalizing s with
  | nil => exact h.resolve_right fun ⟨_, _, he, _⟩ => absurd he List.not_mem_nil
  | cons e es ih =>
    refine ih (fun e' he' => hdel e' (List.mem_cons_of_mem e he')) ?_
    rw [capacity, words_apply, apply, hdel e List.mem_cons_self, contains_insertAll]
    rcases h with hs | ⟨hf, e', he', hadd⟩
    · exact .inl (by rw [show s.removeAll [] = s from rfl, hs, Bool.true_or])
    · rcases List.mem_cons.1 he' with rfl | he'
      · exact .inl (by rw [show s.removeAll [] = s from rfl, decide_eq_true hadd, decide_eq_true hf]; simp)
      · exact .inr ⟨hf, e', he', hadd⟩

/-- Nothing is lost in the relaxation, and all that is added by effects whose guards hold is gained. -/
theorem Action.contains_relaxed_successor {a : Action} {f : FactId} (h : s.contains f = true ∨ f < s.capacity ∧
    ∃ e ∈ a.effects, (∀ g ∈ e.guard.positive, s.contains g = true) ∧ f ∈ e.effect.add) :
    (a.relaxed.successor s).contains f = true := by
  refine State.contains_foldl_add (fun x hx => ?_) (h.imp_right fun ⟨hf, e, he, hguard, hadd⟩ => ⟨hf, ?_⟩)
  · obtain ⟨e', he', rfl⟩ := List.mem_map.1 hx
    obtain ⟨e, -, rfl⟩ := List.mem_map.1 (List.mem_filter.1 he').1
    rfl
  · refine ⟨e.relaxed.effect, List.mem_map_of_mem (List.mem_filter.2 ⟨List.mem_map_of_mem he, ?_⟩), hadd⟩
    exact State.satisfies_relaxed.2 hguard

/-- **Operators in order are a walk of the relaxation**, which gains all that they add. -/
theorem Ordered.walk (hp : p.InTable) (hs : p.numFacts ≤ s.capacity) {os : List Operator} (h : Ordered s os)
    (hos : ∀ o ∈ os, o ∈ Operator.ofActions p.actions) (goal : Condition) :
    ∃ t, (p.relaxed goal).Walk s (os.reverse.map Operator.action) t ∧
      ∀ f, (s.contains f = true ∨ ∃ o ∈ os, f ∈ o.add) → t.contains f = true := by
  induction h with
  | nil => exact ⟨s, .nil s, fun f hf => hf.resolve_right fun ⟨_, ho, _⟩ => absurd ho List.not_mem_nil⟩
  | @cons o os hpre _ ih =>
    obtain ⟨t, hw, hall⟩ := ih fun o' ho' => hos o' (List.mem_cons_of_mem o ho')
    obtain ⟨a, e, ha, he, -, heq⟩ := Operator.exists_of_mem_ofActions (hos o List.mem_cons_self)
    have hmem : a ∈ p.actions := List.mem_of_getElem? ha
    have hholds : ∀ g ∈ a.precondition.positive ++ e.guard.positive, t.contains g = true := by
      refine fun g hg => hall g (hpre g ?_)
      rw [heq]
      exact mem_ascending.2 hg
    have happ : a.relaxed.applicable t = true :=
      State.satisfies_relaxed.2 fun g hg => hholds g (List.mem_append_left _ hg)
    have ha' : (p.relaxed goal).actions[o.action]? = some a.relaxed := by
      rw [Problem.relaxed, List.getElem?_map, ha]
      rfl
    refine ⟨a.relaxed.successor t, ?_, fun f hf => Action.contains_relaxed_successor ?_⟩
    · rw [List.reverse_cons, List.map_append]
      exact hw.concat ha' happ
    · rcases hf with hf | ⟨o', ho', hadd⟩
      · exact .inl (hall f (.inl hf))
      · rcases List.mem_cons.1 ho' with rfl | ho'
        · rw [heq] at hadd
          have hlt : f < t.capacity := by
            rw [State.capacity, hw.words_eq]
            exact Nat.lt_of_lt_of_le (((hp.actions a hmem).2 e he).2.1 f hadd) hs
          exact .inr ⟨hlt, e, he, fun g hg => hholds g (List.mem_append_right _ hg), hadd⟩
        · exact .inl (hall f (.inr ⟨o', ho', hadd⟩))

namespace Relaxation

/-- **A relaxed walk to the goal is no shorter than the dearest goal fact says.** -/
theorem max_le_relaxed_walk (hp : p.InTable) (hgoal : ∀ f ∈ goal.positive, f < p.numFacts) (hk : name.kind = .max)
    (hw : (p.relaxed goal).Walk s is t) (ht : (p.relaxed goal).isGoal t = true) :
    ((ofProblem name p).estimate s goal).value ≤ is.length := by
  have hle := estimate_le_walk (hp.relaxed hgoal) hk hw
  rwa [estimate_goal ht, ofProblem_relaxed, Cost.value_zero, zero_add] at hle

theorem actionCount_eq (os : List Operator) : actionCount os = (os.map Operator.action).toFinset.card := by
  have hnodup : (ascending (os.map Operator.action)).Nodup := (pairwise_ascending _).imp Nat.ne_of_lt
  rw [actionCount, ← List.toFinset_card_of_nodup hnodup]
  refine congrArg Finset.card (Finset.ext fun i => ?_)
  rw [List.mem_toFinset, List.mem_toFinset, mem_ascending]

/-- What a finite estimate by a relaxed plan means, unless the goal holds already. -/
theorem of_estimate_fastForward {r : Relaxation} {n : Nat} (hk : r.kind = .fastForward)
    (h : r.estimate s goal = .finite n) : (∀ g ∈ goal.positive, s.contains g = true) ∧ n = 0 ∨
      (∀ g ∈ goal.positive, g < r.numFacts ∧ (r.labels s).value g ≠ ⊤) ∧
        n = actionCount (r.relaxedPlan (r.labels s) goal.positive) := by
  unfold estimate at h
  split at h
  · rename_i hall
    cases h
    exact .inl ⟨List.all_eq_true.1 hall, rfl⟩
  · split at h
    · cases h
    · rename_i hin
      simp only [hk] at h
      split at h
      · rename_i hfin
        cases h
        refine .inr ⟨fun g hg => ⟨?_, fun htop => ?_⟩, rfl⟩
        · rw [Bool.not_eq_true, List.any_eq_false] at hin
          exact Nat.not_le.1 fun hge => hin g hg (decide_eq_true hge)
        · have hinf : (r.labels s).cost g = .infinite := Cost.value_injective htop
          have hg := List.all_eq_true.1 hfin g hg
          rw [hinf] at hg
          cases hg
      · cases h

/-- Operators of one action are the same, if it adds facts by one effect only. -/
theorem action_injective {actions : List Action} (hone : ∀ a ∈ actions, ∀ e ∈ a.effects, ∀ e' ∈ a.effects,
    e.effect.add ≠ [] → e'.effect.add ≠ [] → e = e') {o o' : Operator} (ho : o ∈ Operator.ofActions actions)
    (ho' : o' ∈ Operator.ofActions actions) (h : o.action = o'.action) : o = o' := by
  obtain ⟨a, e, ha, he, hadd, heq⟩ := Operator.exists_of_mem_ofActions ho
  obtain ⟨a', e', ha', he', hadd', heq'⟩ := Operator.exists_of_mem_ofActions ho'
  rw [h, ha'] at ha
  obtain rfl := Option.some.inj ha
  rw [heq, heq', h, hone _ (List.mem_of_getElem? ha') e he e' he' hadd hadd']

variable {d : Draft}

/-- **The estimate by a relaxed plan counts the actions of a walk of the delete relaxation to the goal**, each of them
once.  The walk is no shorter than the dearest goal fact says; it is as long as the estimate if every action adds facts
by one effect only. -/
theorem estimate_relaxed_walk (hb : d.build = .ok p) (hk : name.kind = .fastForward) (hs : p.numFacts ≤ s.capacity)
    {n : Nat} (h : (ofProblem name p).estimate s goal = .finite n) :
    ∃ is t, (p.relaxed goal).Walk s is t ∧ (p.relaxed goal).isGoal t = true ∧ is.toFinset.card = n ∧
      ((ofProblem .max p).estimate s goal).value ≤ is.length ∧
      ((∀ a ∈ p.actions, ∀ e ∈ a.effects, ∀ e' ∈ a.effects, e.effect.add ≠ [] → e'.effect.add ≠ [] → e = e') →
        is.length = n) := by
  have hp := Draft.build_inTable hb
  rcases of_estimate_fastForward (r := ofProblem name p) hk h with ⟨hall, rfl⟩ | ⟨hgoal, rfl⟩
  · refine ⟨[], s, .nil s, Problem.isGoal_relaxed.2 hall, rfl, ?_, fun _ => rfl⟩
    rw [estimate, if_pos (List.all_eq_true.2 hall)]
    exact le_rfl
  · obtain ⟨os, hnodup, hmem, hops, hord, hcover⟩ := exists_ordered_relaxedPlan fun g hg => (hgoal g hg).2
    obtain ⟨t, hw, hall⟩ := hord.walk hp hs hops goal
    have ht : (p.relaxed goal).isGoal t = true := Problem.isGoal_relaxed.2 fun g hg => hall g (hcover g hg)
    have hcard : (os.reverse.map Operator.action).toFinset.card =
        actionCount ((ofProblem name p).relaxedPlan ((ofProblem name p).labels s) goal.positive) := by
      rw [actionCount_eq]
      refine congrArg Finset.card (Finset.ext fun i => ?_)
      simp only [List.mem_toFinset, List.mem_map, List.mem_reverse, hmem]
    refine ⟨_, t, hw, ht, hcard, max_le_relaxed_walk hp (fun g hg => (hgoal g hg).1) rfl hw ht, fun hone => ?_⟩
    rw [← hcard, List.toFinset_card_of_nodup]
    refine (List.nodup_reverse.2 hnodup).map_on fun o ho o' ho' => ?_
    exact action_injective hone (hops o (List.mem_reverse.1 ho)) (hops o' (List.mem_reverse.1 ho'))

/-- The lamp has effects of one kind only, so the estimate of two is the length of a walk that lights it. -/
theorem estimate_relaxed_walk_lamp : ∃ p, Families.conditionalLamp.build = .ok p ∧ p.numFacts ≤ p.init.capacity ∧
    (ofProblem .fastForward p).estimate p.init p.goal = .finite 2 ∧
    ∃ is t, (p.relaxed p.goal).Walk p.init is t ∧ (p.relaxed p.goal).isGoal t = true ∧ is.length = 2 := by
  obtain ⟨p, hb, hp⟩ := Draft.exists_build (d := Families.conditionalLamp)
    (fun p => p.numFacts ≤ p.init.capacity && ((ofProblem .fastForward p).estimate p.init p.goal = .finite 2 &&
      decide (∀ a ∈ p.actions, ∀ e ∈ a.effects, ∀ e' ∈ a.effects,
        e.effect.add ≠ [] → e'.effect.add ≠ [] → e = e'))) (by decide +kernel)
  simp only [Bool.and_eq_true, decide_eq_true_eq] at hp
  obtain ⟨hs, hest, hone⟩ := hp
  obtain ⟨is, t, hw, ht, -, -, hlen⟩ := estimate_relaxed_walk hb rfl hs hest
  exact ⟨p, hb, hs, hest, is, t, hw, ht, hlen hone⟩

/-- The first press arms the switch, and every further one lights the lamp. -/
def armedSwitch : Draft where
  name := "switch"
  requirements := [.strips, .conditionalEffects]
  facts := some ["armed", "lit"]
  goal := ["lit"]
  actions := [{ name := "press", add := ["armed"], when := [{ pre := ["armed"], add := ["lit"] }] }]

/-- The lamp is lit by pressing twice, and not by pressing once, but the estimate counts the one action. -/
theorem estimate_repeated_action : ∃ p, armedSwitch.build = .ok p ∧
    (ofProblem .fastForward p).estimate p.init p.goal = .finite 1 ∧
    (ofProblem .max p).estimate p.init p.goal = .finite 2 ∧
    ∀ is t, (p.relaxed p.goal).Walk p.init is t → (p.relaxed p.goal).isGoal t = true → is.length ≠ 1 := by
  obtain ⟨p, hb, hp⟩ := Draft.exists_build (d := armedSwitch)
    (fun p => (ofProblem .fastForward p).estimate p.init p.goal = .finite 1 &&
      decide ((ofProblem .max p).estimate p.init p.goal = .finite 2)) (by decide +kernel)
  simp only [Bool.and_eq_true, decide_eq_true_eq] at hp
  have htable := Draft.build_inTable hb
  refine ⟨p, hb, hp.1, hp.2, fun is t hw ht hone => ?_⟩
  have hle : ((ofProblem .max p).estimate p.init p.goal).value ≤ is.length :=
    max_le_relaxed_walk htable htable.goal.1 rfl hw ht
  rw [hp.2, hone, Cost.value_finite] at hle
  exact absurd hle (by decide)

end Relaxation
end GroundPlanner
