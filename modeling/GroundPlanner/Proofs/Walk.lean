import GroundPlanner.Plan
/-!
# Walks

A walk takes applicable actions one after another; the states at the ends of the walks from the initial state are
the reachable ones.  A plan is valid exactly when it is a walk to a goal state (`Plan.validate_eq_ok_iff`), so what
the searches find and miss is stated on walks.
-/
namespace GroundPlanner
namespace Problem

/-- The actions with indices `is`, taken in this order from `s`, are all applicable and lead to `t`. -/
inductive Walk (p : Problem) : State → List Nat → State → Prop where
  | nil (s : State) : Walk p s [] s
  | cons {s t : State} {i : Nat} {is : List Nat} {a : Action} (ha : p.actions[i]? = some a)
      (happ : a.applicable s = true) (hw : Walk p (a.successor s) is t) : Walk p s (i :: is) t

/-- Some walk from the initial state ends in `s`. -/
def Reachable (p : Problem) (s : State) : Prop :=
  ∃ is, p.Walk p.init is s

variable {p : Problem}

theorem Walk.append {s t u : State} {is js : List Nat} (h : p.Walk s is t) (h' : p.Walk t js u) :
    p.Walk s (is ++ js) u := by
  induction h with
  | nil s => exact h'
  | cons ha happ _ ih => exact .cons ha happ (ih h')

theorem Walk.concat {s t : State} {i : Nat} {is : List Nat} {a : Action} (h : p.Walk s is t)
    (ha : p.actions[i]? = some a) (happ : a.applicable t = true) : p.Walk s (is ++ [i]) (a.successor t) :=
  h.append (.cons ha happ (.nil _))

theorem Walk.words_eq {s t : State} {is : List Nat} (h : p.Walk s is t) : t.words = s.words := by
  induction h with
  | nil s => rfl
  | cons _ _ _ ih => rw [ih, Action.words_successor]

theorem Walk.unique {s t t' : State} {is : List Nat} (h : p.Walk s is t) (h' : p.Walk s is t') : t = t' := by
  induction h with
  | nil s => cases h'; rfl
  | cons ha _ _ ih =>
    cases h' with
    | cons ha' _ hw' =>
      rw [ha] at ha'
      cases ha'
      exact ih hw'

theorem Reachable.words_eq {s : State} (h : p.Reachable s) : s.words = p.init.words := by
  obtain ⟨is, hw⟩ := h
  exact hw.words_eq

/-- The states met on taking the actions `is` from `s`, both ends included.  An index out of range ends the way. -/
def statesAlong (p : Problem) : State → List Nat → List State
  | s, [] => [s]
  | s, i :: is =>
    s :: match p.actions[i]? with
      | some a => p.statesAlong (a.successor s) is
      | none => []

theorem statesAlong_cons {s : State} {i : Nat} {is : List Nat} {a : Action} (ha : p.actions[i]? = some a) :
    p.statesAlong s (i :: is) = s :: p.statesAlong (a.successor s) is := by
  simp only [statesAlong, ha]

theorem statesAlong_ne_nil (s : State) (is : List Nat) : p.statesAlong s is ≠ [] := by
  cases is <;> exact List.cons_ne_nil _ _

namespace Walk

variable {s t : State} {is : List Nat}

theorem length_statesAlong (h : p.Walk s is t) : (p.statesAlong s is).length = is.length + 1 := by
  induction h with
  | nil s => rfl
  | cons ha _ _ ih => rw [statesAlong_cons ha, List.length_cons, ih, List.length_cons]

theorem getLast?_statesAlong (h : p.Walk s is t) : (p.statesAlong s is).getLast? = some t := by
  induction h with
  | nil s => rfl
  | cons ha _ _ ih =>
    rw [statesAlong_cons ha, List.getLast?_cons_of_ne_nil (statesAlong_ne_nil _ _), ih]

/-- One more action is one more state. -/
theorem statesAlong_concat (h : p.Walk s is t) {i : Nat} {a : Action} (ha : p.actions[i]? = some a) :
    p.statesAlong s (is ++ [i]) = p.statesAlong s is ++ [a.successor t] := by
  induction h with
  | nil s => exact statesAlong_cons ha
  | cons hb _ _ ih => rw [List.cons_append, statesAlong_cons hb, statesAlong_cons hb, ih, List.cons_append]

theorem exists_of_mem_statesAlong (h : p.Walk s is t) {u : State} (hu : u ∈ p.statesAlong s is) :
    ∃ js, p.Walk s js u := by
  induction h with
  | nil s =>
    rw [List.mem_singleton.1 hu]
    exact ⟨[], .nil s⟩
  | cons ha happ _ ih =>
    rw [statesAlong_cons ha] at hu
    rcases List.mem_cons.1 hu with rfl | hu
    · exact ⟨[], .nil _⟩
    · obtain ⟨js, hjs⟩ := ih hu
      exact ⟨_ :: js, .cons ha happ hjs⟩

/-- The states on the way are those before the end, and the end. -/
theorem mem_statesAlong_iff (h : p.Walk s is t) {u : State} :
    u ∈ p.statesAlong s is ↔ u ∈ (p.statesAlong s is).dropLast ∨ u = t := by
  obtain ⟨us, hus⟩ := List.getLast?_eq_some_iff.1 h.getLast?_statesAlong
  rw [hus, List.dropLast_concat, List.mem_append, List.mem_singleton]

/-- A state before the end is reached by fewer actions. -/
theorem exists_of_mem_dropLast (h : p.Walk s is t) {u : State} (hu : u ∈ (p.statesAlong s is).dropLast) :
    ∃ js, p.Walk s js u ∧ js.length < is.length := by
  induction h with
  | nil s => cases hu
  | cons ha happ _ ih =>
    rw [statesAlong_cons ha, List.dropLast_cons_of_ne_nil (statesAlong_ne_nil _ _)] at hu
    rcases List.mem_cons.1 hu with rfl | hu
    · exact ⟨[], .nil _, Nat.succ_pos _⟩
    · obtain ⟨js, hjs, hlen⟩ := ih hu
      exact ⟨_ :: js, .cons ha happ hjs, Nat.succ_lt_succ hlen⟩

/-- On a shortest way to a goal there is no goal before the end: it would end a shorter one. -/
theorem not_goal_of_shortest (h : p.Walk s is t)
    (hshortest : ∀ js u, p.Walk s js u → p.isGoal u = true → is.length ≤ js.length) :
    ∀ u ∈ (p.statesAlong s is).dropLast, p.isGoal u = false := by
  intro u hu
  obtain ⟨js, hjs, hlt⟩ := h.exists_of_mem_dropLast hu
  exact Bool.eq_false_iff.2 fun hg => absurd (hshortest js u hjs hg) (Nat.not_le.2 hlt)

end Walk

theorem options_eq_nil_iff {s : State} : p.options s = [] ↔ ∀ a ∈ p.actions, a.applicable s = false := by
  constructor
  · intro hnil a ha
    obtain ⟨i, hi⟩ := List.mem_iff_getElem?.1 ha
    refine Bool.eq_false_iff.2 (fun happ => ?_)
    have hmem : (i, a) ∈ p.options s := mem_options.2 ⟨hi, happ⟩
    rw [hnil] at hmem
    cases hmem
  · intro hnone
    refine List.eq_nil_iff_forall_not_mem.2 (fun ⟨i, a⟩ hmem => ?_)
    obtain ⟨hi, happ⟩ := mem_options.1 hmem
    rw [hnone a (List.mem_of_getElem? hi)] at happ
    cases happ

theorem mem_successors {s t : State} {i : Nat} :
    (i, t) ∈ p.successors s ↔ ∃ a, p.actions[i]? = some a ∧ a.applicable s = true ∧ a.successor s = t := by
  simp only [successors, List.mem_map, Prod.exists, Prod.mk.injEq]
  constructor
  · rintro ⟨j, a, hm, rfl, rfl⟩
    obtain ⟨ha, happ⟩ := mem_options.1 hm
    exact ⟨a, ha, happ, rfl⟩
  · rintro ⟨a, ha, happ, rfl⟩
    exact ⟨i, a, mem_options.2 ⟨ha, happ⟩, rfl, rfl⟩

/-- There is one successor for each applicable action. -/
theorem length_successors (s : State) : (p.successors s).length = p.actions.countP (fun a => a.applicable s) := by
  have hsome : ∀ x : Action × Nat, Option.isSome (if x.1.applicable s then some (x.2, x.1) else none) =
      x.1.applicable s := by
    intro x
    split <;> simp_all
  unfold successors options
  rw [List.length_map, List.length_filterMap_eq_countP]
  calc p.actions.zipIdx.countP (fun x => Option.isSome (if x.1.applicable s then some (x.2, x.1) else none))
      = p.actions.zipIdx.countP ((fun a => a.applicable s) ∘ Prod.fst) := List.countP_congr (fun x _ => by
        rw [hsome]
        rfl)
    _ = p.actions.countP (fun a => a.applicable s) := by rw [← List.countP_map, List.zipIdx_map_fst]

theorem length_successors_le (s : State) : (p.successors s).length ≤ p.actions.length := by
  rw [length_successors]
  exact List.countP_le_length

theorem length_options_le (s : State) : (p.options s).length ≤ p.actions.length := by
  have hle := p.length_successors_le s
  rwa [successors, List.length_map] at hle

/-- **What holds initially and of every successor holds of all reachable states.** -/
theorem Reachable.induct {I : State → Prop} (hinit : I p.init)
    (hstep : ∀ s x, I s → x ∈ p.successors s → I x.2) {s : State} (h : p.Reachable s) : I s := by
  obtain ⟨is, hw⟩ := h
  generalize p.init = s₀ at hinit hw
  induction hw with
  | nil s => exact hinit
  | cons ha happ _ ih => exact ih (hstep _ (_, _) hinit (mem_successors.2 ⟨_, ha, happ, rfl⟩))

end Problem

namespace Plan

/-- Executing steps succeeds exactly along a walk. -/
theorem run_eq_ok_iff {p : Problem} {done : Nat} {s t : State} {is : List Nat} :
    run p.actions done s is = .ok t ↔ p.Walk s is t := by
  constructor
  · intro h
    induction is generalizing done s with
    | nil =>
      simp only [run, Except.ok.injEq] at h
      subst h
      exact .nil s
    | cons i is ih =>
      simp only [run] at h
      split at h
      · cases h
      · rename_i a ha
        split at h
        · rename_i happ
          exact .cons ha happ (ih h)
        · cases h
  · intro h
    induction h generalizing done with
    | nil s => rfl
    | cons ha happ _ ih => simp only [run, ha, happ, if_true, ih]

theorem simulate_eq_ok_iff {p : Problem} {plan : Plan} {t : State} :
    plan.simulate p = .ok t ↔ p.Walk p.init plan.steps t := by
  have hrun : run p.actions 0 p.init plan.steps = .ok t ↔ p.Walk p.init plan.steps t := run_eq_ok_iff
  rw [← hrun, simulate]
  cases run p.actions 0 p.init plan.steps with
  | error e => exact ⟨nofun, nofun⟩
  | ok u =>
    change (Except.ok u : Except PlannerError State) = .ok t ↔ _
    rw [Except.ok.injEq, Except.ok.injEq]

/-- **A plan is valid exactly when it is a walk to a goal state.** -/
theorem validate_eq_ok_iff {p : Problem} {plan : Plan} :
    plan.validate p = .ok () ↔ ∃ t, p.Walk p.init plan.steps t ∧ p.isGoal t = true := by
  unfold validate simulate
  cases h : run p.actions 0 p.init plan.steps with
  | error e =>
    refine ⟨fun hv => (by cases hv), ?_⟩
    rintro ⟨t, hw, -⟩
    rw [run_eq_ok_iff.2 hw] at h
    cases h
  | ok t =>
    have hw : p.Walk p.init plan.steps t := run_eq_ok_iff.1 h
    change (if p.isGoal t = true then Except.ok () else _) = Except.ok () ↔ _
    constructor
    · intro hg
      split at hg
      · exact ⟨t, hw, by assumption⟩
      · cases hg
    · rintro ⟨t', hw', hg⟩
      rw [if_pos (hw.unique hw' ▸ hg)]

end Plan
end GroundPlanner
