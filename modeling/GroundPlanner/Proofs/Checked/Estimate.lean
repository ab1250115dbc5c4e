import GroundPlanner.Proofs.Checked.Labels
/-!
# Estimates within their arrays

A relaxed plan is collected with a mark for each fact and each operator, a fact being expanded and an operator being
chosen when its mark is set (`Extraction`).  The marks, the supporters and the operators are all looked up.  What is
marked is needed, and what is needed is marked or waits on the stack (`Extracting`), so in the end the chosen operators
are those of the relaxed plan (`Extracting.extract?_eq_some`).  Each operator is chosen once, so what those left may
put on the stack bounds the steps (`spare`).  An estimate for a problem with its facts in the table, from any state and
to any goal, looks up nothing that is not there (`Relaxation.estimate?_eq_some`).
-/
namespace GroundPlanner

theorem setIfInBounds_true_iff {xs : Array Bool} {i j : Nat} (hi : i < xs.size) :
    (xs.setIfInBounds i true)[j]? = some true ↔ j = i ∨ xs[j]? = some true := by
  rw [Array.getElem?_setIfInBounds]
  by_cases hij : i = j
  · simp [hij, hij ▸ hi]
  · simp [hij, Ne.symm hij]

theorem getElem?_eq_true_or_false {xs : Array Bool} {i : Nat} (hi : i < xs.size) :
    xs[i]? = some true ∨ xs[i]? = some false := by
  rw [Array.getElem?_eq_getElem hi]
  cases xs[i] with
  | true => exact .inl rfl
  | false => exact .inr rfl

/-! ## Collecting a plan -/

/-- What was collected so far: the facts that wait, the marks of facts and operators, and the actions chosen. -/
structure Extraction where
  stack : List FactId
  visited : Array Bool
  marked : Array Bool
  actions : List Nat

namespace Extraction

/-- The extraction before the facts of `goal` are expanded. -/
def start (numFacts numOperators : Nat) (goal : List FactId) : Extraction where
  stack := goal.reverse
  visited := .replicate numFacts false
  marked := .replicate numOperators false
  actions := []

/-- Chooses the operator at a place, unless it was chosen before. -/
def choose? (os : List Operator) (i : Nat) (e : Extraction) : Option Extraction := do
  if ← e.marked[i]? then return e
  else
    let marked ← store? e.marked i true
    let o ← os[i]?
    return { e with stack := o.pre.reverse ++ e.stack, marked := marked, actions := o.action :: e.actions }

/-- Expands a fact, unless it was expanded before. -/
def expand? (os : List Operator) (x : PlacedLabels) (f : FactId) (e : Extraction) : Option Extraction := do
  if ← e.visited[f]? then return e
  else
    let visited ← store? e.visited f true
    match ← x.supporters[f]? with
    | none => return { e with visited := visited }
    | some i => choose? os i { e with visited := visited }

/-- Expands the facts on the stack; there is no result if that takes more than `n` steps. -/
def extract? (os : List Operator) (x : PlacedLabels) : Nat → Extraction → Option (List Nat)
  | n, e => match e.stack, n with
    | [], _ => some e.actions
    | _ :: _, 0 => none
    | f :: stack, n + 1 => do extract? os x n (← expand? os x f { e with stack := stack })

/-- A fact is visited or waits on the stack. -/
def Seen (e : Extraction) (f : FactId) : Prop :=
  e.visited[f]? = some true ∨ f ∈ e.stack

end Extraction

open Extraction

namespace PlacedLabels

variable {n : Nat} {os : List Operator} {x : PlacedLabels} {l : Labels} {f : FactId} {o : Operator}

theorem Tells.supporter?_eq_some (h : Tells n os x l) (hf : f < n) :
    ∃ place, x.supporters[f]? = some place ∧ l.supporter f = place.bind (os[·]?) := by
  have hlt : f < x.supporters.size := h.size_eq'.symm ▸ hf
  refine ⟨x.supporters[f], Array.getElem?_eq_getElem hlt, ?_⟩
  rw [Labels.supporter, ← h.supporters_eq, Array.getD_eq_getD_getElem?, Array.getElem?_map,
    Array.getElem?_eq_getElem hlt, Option.map_some, Option.getD_some]

theorem Tells.lt_of_supporter (h : Tells n os x l) (ho : l.supporter f = some o) : f < n := by
  by_contra hge
  rw [Labels.supporter, ← h.supporters_eq, Array.getD_eq_getD_getElem?, Array.getElem?_eq_none] at ho
  · cases ho
  · rw [Array.size_map, h.size_eq']
    exact Nat.not_lt.1 hge

/-- Every supporter has its place. -/
theorem Tells.exists_place (h : Tells n os x l) (ho : l.supporter f = some o) :
    ∃ i, x.supporters[f]? = some (some i) ∧ os[i]? = some o := by
  obtain ⟨place, hplace, heq⟩ := h.supporter?_eq_some (h.lt_of_supporter ho)
  rw [ho] at heq
  obtain ⟨i, rfl, hi⟩ := Option.bind_eq_some_iff.1 heq.symm
  exact ⟨i, hplace, hi⟩

theorem Tells.supporter_eq (h : Tells n os x l) {i : Nat} (hi : x.supporters[f]? = some (some i)) :
    ∃ o, os[i]? = some o ∧ l.supporter f = some o := by
  have hlt := h.place_lt i (Array.mem_of_getElem? hi)
  have hf : f < n := h.size_eq' ▸ (Array.getElem?_eq_some_iff.1 hi).1
  obtain ⟨place, hplace, heq⟩ := h.supporter?_eq_some hf
  rw [hi] at hplace
  cases hplace
  rw [Option.bind_some] at heq
  exact ⟨os[i], List.getElem?_eq_getElem hlt, heq.trans (List.getElem?_eq_getElem hlt)⟩

/-- The facts that a plan needs are those of the goal and those that operators ask for. -/
theorem Tells.lt_of_needed (h : Tells n os x l) (hos : ∀ o ∈ os, o.Within n) {goal : List FactId}
    (hgoal : ∀ g ∈ goal, g < n) (hf : Needed l goal f) : f < n := by
  cases hf with
  | goal hf => exact hgoal f hf
  | pre _ ho hg =>
    obtain ⟨i, -, hi⟩ := h.exists_place ho
    exact (hos _ (List.mem_of_getElem? hi)).1 f hg

end PlacedLabels

/-- **What holds between two steps of the extraction.** -/
structure Extracting (n : Nat) (os : List Operator) (x : PlacedLabels) (l : Labels) (goal : List FactId)
    (e : Extraction) : Prop where
  size_visited : e.visited.size = n
  size_marked : e.marked.size = os.length
  stack_needed : ∀ f ∈ e.stack, Needed l goal f
  goal_seen : ∀ f ∈ goal, e.Seen f
  pre_seen : ∀ (i : Nat) (o : Operator), e.marked[i]? = some true → os[i]? = some o → ∀ g ∈ o.pre, e.Seen g
  supporter_marked : ∀ f i : Nat, e.visited[f]? = some true → x.supporters[f]? = some (some i) →
    e.marked[i]? = some true
  marked_needed : ∀ i : Nat, e.marked[i]? = some true → ∃ f, Needed l goal f ∧ x.supporters[f]? = some (some i)
  mem_actions : ∀ a, a ∈ e.actions ↔
    ∃ (i : Nat) (o : Operator), e.marked[i]? = some true ∧ os[i]? = some o ∧ o.action = a

/-- What the operators that are not marked may still put on the stack. -/
def spare : List Operator → List Bool → Nat
  | o :: os, chosen :: marked => (if chosen then 0 else o.pre.length) + spare os marked
  | _, _ => 0

theorem spare_set {os : List Operator} {marked : List Bool} {i : Nat} {o : Operator} (hi : marked[i]? = some false)
    (ho : os[i]? = some o) : spare os (marked.set i true) + o.pre.length = spare os marked := by
  induction os generalizing marked i with
  | nil => cases ho
  | cons o' os ih =>
    cases marked with
    | nil => cases hi
    | cons chosen marked =>
      cases i with
      | zero =>
        cases hi
        cases ho
        simp only [List.set_cons_zero, spare, if_true, Bool.false_eq_true, if_false]
        omega
      | succ i =>
        have hrest : spare os (marked.set i true) + o.pre.length = spare os marked := ih hi ho
        simp only [List.set_cons_succ, spare]
        omega

theorem spare_replicate (os : List Operator) :
    spare os (List.replicate os.length false) = (os.map (fun o => o.pre.length)).sum := by
  induction os with
  | nil => rfl
  | cons o os ih =>
    simp only [List.length_cons, List.replicate_succ, spare, Bool.false_eq_true, if_false, ih, List.map_cons,
      List.sum_cons]

namespace Extracting

variable {n k : Nat} {os : List Operator} {x : PlacedLabels} {l : Labels} {goal stack : List FactId} {e : Extraction}
  {f : FactId} {i : Nat} {o : Operator}

/-- A fact that was visited is taken off the stack. -/
theorem skip (h : Extracting n os x l goal { e with stack := f :: e.stack }) (hf : e.visited[f]? = some true) :
    Extracting n os x l goal e := by
  have hseen : ∀ g, Seen { e with stack := f :: e.stack } g → e.Seen g := by
    rintro g (hg | hg)
    · exact .inl hg
    · rcases List.mem_cons.1 hg with rfl | hg
      · exact .inl hf
      · exact .inr hg
  exact ⟨h.size_visited, h.size_marked, fun g hg => h.stack_needed g (List.mem_cons_of_mem f hg),
    fun g hg => hseen g (h.goal_seen g hg), fun i o hi ho g hg => hseen g (h.pre_seen i o hi ho g hg),
    h.supporter_marked, h.marked_needed, h.mem_actions⟩

/-- A fact is visited whose supporter is marked, if it has one. -/
theorem visit (h : Extracting n os x l goal { e with stack := f :: e.stack }) (hf : f < n)
    (hmarked : ∀ i, x.supporters[f]? = some (some i) → e.marked[i]? = some true) :
    Extracting n os x l goal { e with visited := e.visited.setIfInBounds f true } := by
  have hiff : ∀ {g}, (e.visited.setIfInBounds f true)[g]? = some true ↔ g = f ∨ e.visited[g]? = some true :=
    setIfInBounds_true_iff (h.size_visited.symm ▸ hf)
  -- While the fact is visited it still waits, so that nothing is unseen in between.
  have hvisited : Extracting n os x l goal
      { e with stack := f :: e.stack, visited := e.visited.setIfInBounds f true } := by
    refine ⟨Array.size_setIfInBounds.trans h.size_visited, h.size_marked, h.stack_needed,
      fun g hg => (h.goal_seen g hg).imp_left fun hg => hiff.2 (.inr hg),
      fun i o hi ho g hg => (h.pre_seen i o hi ho g hg).imp_left fun hg => hiff.2 (.inr hg),
      fun g i hg hi => ?_, h.marked_needed, h.mem_actions⟩
    rcases hiff.1 hg with rfl | hg
    · exact hmarked i hi
    · exact h.supporter_marked g i hg hi
  exact hvisited.skip (hiff.2 (.inl rfl))

/-- The supporter of the fact on top of the stack is marked, and its precondition put below the fact. -/
theorem choose (h : Extracting n os x l goal { e with stack := f :: e.stack }) (hx : x.Tells n os l)
    (hi : x.supporters[f]? = some (some i)) (ho : os[i]? = some o) : Extracting n os x l goal
      { e with
        stack := f :: (o.pre.reverse ++ e.stack)
        marked := e.marked.setIfInBounds i true
        actions := o.action :: e.actions } := by
  have hneeded : Needed l goal f := h.stack_needed f List.mem_cons_self
  have hsupporter : l.supporter f = some o := by
    obtain ⟨o', ho', hsupporter⟩ := hx.supporter_eq hi
    rwa [ho, ← ho'] at *
  have hiff : ∀ {j}, (e.marked.setIfInBounds i true)[j]? = some true ↔ j = i ∨ e.marked[j]? = some true :=
    setIfInBounds_true_iff (h.size_marked.symm ▸ (List.getElem?_eq_some_iff.1 ho).1)
  have hmem : ∀ {g}, g ∈ f :: (o.pre.reverse ++ e.stack) ↔ g ∈ o.pre ∨ g ∈ f :: e.stack := by
    intro g
    simp only [List.mem_cons, List.mem_append, List.mem_reverse]
    tauto
  refine ⟨h.size_visited, Array.size_setIfInBounds.trans h.size_marked, fun g hg => ?_,
    fun g hg => (h.goal_seen g hg).imp_right fun hg => hmem.2 (.inr hg), fun j o' hj ho' g hg => ?_,
    fun g j hg hj => hiff.2 (.inr (h.supporter_marked g j hg hj)), fun j hj => ?_, fun a => ?_⟩
  · rcases hmem.1 hg with hg | hg
    · exact .pre hneeded hsupporter hg
    · exact h.stack_needed g hg
  · rcases hiff.1 hj with rfl | hj
    · rw [ho] at ho'
      cases ho'
      exact .inr (hmem.2 (.inl hg))
    · exact (h.pre_seen j o' hj ho' g hg).imp_right fun hg => hmem.2 (.inr hg)
  · rcases hiff.1 hj with rfl | hj
    · exact ⟨f, hneeded, hi⟩
    · exact h.marked_needed j hj
  · rw [List.mem_cons, h.mem_actions a]
    constructor
    · rintro (rfl | ⟨j, o', hj, ho', ha⟩)
      · exact ⟨i, o, hiff.2 (.inl rfl), ho, rfl⟩
      · exact ⟨j, o', hiff.2 (.inr hj), ho', ha⟩
    · rintro ⟨j, o', hj, ho', rfl⟩
      rcases hiff.1 hj with rfl | hj
      · rw [ho] at ho'
        cases ho'
        exact .inl rfl
      · exact .inr ⟨j, o', hj, ho', rfl⟩

/-- **A step of the extraction stays within the arrays**, and what it puts on the stack is spare no longer. -/
theorem expand?_eq_some (h : Extracting n os x l goal { e with stack := f :: e.stack }) (hx : x.Tells n os l)
    (hf : f < n) : ∃ e', expand? os x f e = some e' ∧ Extracting n os x l goal e' ∧
      e'.stack.length + spare os e'.marked.toList = e.stack.length + spare os e.marked.toList := by
  have hlt : f < e.visited.size := h.size_visited.symm ▸ hf
  unfold expand?
  rcases getElem?_eq_true_or_false hlt with hvisited | hvisited
  · simp only [hvisited, Option.bind_eq_bind, Option.bind_some]
    exact ⟨e, rfl, h.skip hvisited, rfl⟩
  · obtain ⟨place, hplace, -⟩ := hx.supporter?_eq_some hf
    have hplaces : ∀ j, x.supporters[f]? = some (some j) → place = some j :=
      fun j hj => Option.some.inj (hplace.symm.trans hj)
    simp only [hvisited, store?_eq_some hlt, hplace, Option.bind_eq_bind, Option.bind_some]
    cases place with
    | none =>
      have hvisit := h.visit hf fun j hj => nomatch hplaces j hj
      exact ⟨_, rfl, hvisit, rfl⟩
    | some i =>
      obtain ⟨o, ho, -⟩ := hx.supporter_eq hplace
      have hi : i < e.marked.size := h.size_marked.symm ▸ (List.getElem?_eq_some_iff.1 ho).1
      unfold choose?
      rcases getElem?_eq_true_or_false hi with hmarked | hmarked
      · simp only [hmarked, Option.bind_eq_bind, Option.bind_some]
        have hvisit := h.visit hf fun j hj => Option.some.inj (hplaces j hj) ▸ hmarked
        exact ⟨_, rfl, hvisit, rfl⟩
      · simp only [hmarked, store?_eq_some hi, ho, Option.bind_eq_bind, Option.bind_some]
        -- The operator is marked first: of a visited fact the supporter has to be.
        have hchosen := h.choose hx hplace ho
        have hvisit := visit (e := ⟨o.pre.reverse ++ e.stack, e.visited, e.marked.setIfInBounds i true,
          o.action :: e.actions⟩) hchosen hf fun j hj =>
            (setIfInBounds_true_iff hi).2 (.inl (Option.some.inj (hplaces j hj)).symm)
        refine ⟨_, rfl, hvisit, ?_⟩
        have hspare : spare os (e.marked.toList.set i true) + o.pre.length = spare os e.marked.toList :=
          spare_set (Array.getElem?_toList.trans hmarked) ho
        simp only [Array.toList_setIfInBounds, List.length_append, List.length_reverse]
        omega

/-- **With an empty stack** the actions are those of the supporters of needed facts. -/
theorem mem_actions_iff (h : Extracting n os x l goal e) (hx : x.Tells n os l) (hnil : e.stack = []) (a : Nat) :
    a ∈ e.actions ↔ ∃ f o, Needed l goal f ∧ l.supporter f = some o ∧ o.action = a := by
  have hseen : ∀ {f}, e.Seen f → e.visited[f]? = some true := by
    rintro f (hf | hf)
    · exact hf
    · rw [hnil] at hf
      cases hf
  have hvisited : ∀ {f}, Needed l goal f → e.visited[f]? = some true := by
    intro f hf
    induction hf with
    | goal hf => exact hseen (h.goal_seen _ hf)
    | pre _ ho hg ih =>
      obtain ⟨i, hplace, hi⟩ := hx.exists_place ho
      exact hseen (h.pre_seen i _ (h.supporter_marked _ i ih hplace) hi _ hg)
  rw [h.mem_actions]
  constructor
  · rintro ⟨i, o, hi, ho, rfl⟩
    obtain ⟨f, hf, hplace⟩ := h.marked_needed i hi
    obtain ⟨o', ho', hsupporter⟩ := hx.supporter_eq hplace
    rw [ho] at ho'
    cases ho'
    exact ⟨f, o, hf, hsupporter, rfl⟩
  · rintro ⟨f, o, hf, ho, rfl⟩
    obtain ⟨i, hplace, hi⟩ := hx.exists_place ho
    exact ⟨i, o, h.supporter_marked f i (hvisited hf) hplace, hi, rfl⟩

/-- **The extraction ends with the actions of the relaxed plan.** -/
theorem extract?_eq_some (h : Extracting n os x l goal e) (hx : x.Tells n os l) (hlt : ∀ f, Needed l goal f → f < n)
    (hk : e.stack.length + spare os e.marked.toList ≤ k) : ∃ as, extract? os x k e = some as ∧
      ∀ a, a ∈ as ↔ ∃ f o, Needed l goal f ∧ l.supporter f = some o ∧ o.action = a := by
  induction k generalizing e with
  | zero =>
    obtain ⟨stack, visited, marked, actions⟩ := e
    cases stack with
    | nil => exact ⟨actions, rfl, h.mem_actions_iff hx rfl⟩
    | cons f stack =>
      simp only [List.length_cons] at hk
      omega
  | succ k ih =>
    obtain ⟨stack, visited, marked, actions⟩ := e
    cases stack with
    | nil => exact ⟨actions, rfl, h.mem_actions_iff hx rfl⟩
    | cons f stack =>
      have hf := hlt f (h.stack_needed f List.mem_cons_self)
      obtain ⟨e', he', hnext, hspare⟩ := expand?_eq_some (e := ⟨stack, visited, marked, actions⟩) h hx hf
      simp only [List.length_cons] at hk hspare
      obtain ⟨as, has, hmem⟩ := ih hnext (by omega)
      refine ⟨as, ?_, hmem⟩
      unfold extract?
      simp only [he', Option.bind_eq_bind, Option.bind_some]
      exact has

end Extracting

/-! ## Estimates -/

namespace Relaxation

/-- The number of different actions in the relaxed plan. -/
def planLength? (r : Relaxation) (x : PlacedLabels) (goal : List FactId) : Option Nat := do
  let actions ← extract? r.operators x (goal.length + (r.operators.map (fun o => o.pre.length)).sum)
    (.start r.numFacts r.operators.length goal)
  return (ascending actions).length

/-- The estimated number of actions from `s` to a state with the positive facts of `goal`. -/
def estimate? (r : Relaxation) (s : State) (goal : Condition) : Option Cost :=
  if goal.positive.all s.contains then some .zero
  else if goal.positive.any (fun g => r.numFacts ≤ g) then some .infinite
  else do
    let x ← r.labels? s
    match r.kind with
    | .max | .additive => x.total? r.kind goal.positive
    | .fastForward =>
      let costs ← goal.positive.mapM (x.costs[·]?)
      if costs.all Cost.isFinite then return .finite (← r.planLength? x goal.positive) else return .infinite

variable {r : Relaxation} {x : PlacedLabels} {l : Labels} {goal : List FactId}

theorem extracting_start (n : Nat) (os : List Operator) (x : PlacedLabels) (l : Labels) (goal : List FactId) :
    Extracting n os x l goal (.start n os.length goal) := by
  have hnone : ∀ {k i : Nat}, ¬ (Array.replicate k false)[i]? = some true := by
    intro k i hi
    cases (Array.mem_replicate.1 (Array.mem_of_getElem? hi)).2
  refine ⟨Array.size_replicate, Array.size_replicate, fun f hf => .goal (List.mem_reverse.1 hf),
    fun f hf => .inr (List.mem_reverse.2 hf), fun i o hi => absurd hi hnone, fun f i hf => absurd hf hnone,
    fun i hi => absurd hi hnone, fun a => iff_of_false List.not_mem_nil ?_⟩
  rintro ⟨i, -, hi, -⟩
  exact hnone hi

/-- **Collecting the relaxed plan stays within the arrays.** -/
theorem planLength?_eq_some (hr : ∀ o ∈ r.operators, o.Within r.numFacts) (hx : x.Tells r.numFacts r.operators l)
    (hgoal : ∀ g ∈ goal, g < r.numFacts) : r.planLength? x goal = some (actionCount (r.relaxedPlan l goal)) := by
  have hlt : ∀ f, Needed l goal f → f < r.numFacts := fun f => hx.lt_of_needed hr hgoal
  have hsize : l.supporters.size = r.numFacts := by rw [← hx.supporters_eq, Array.size_map, hx.size_eq']
  obtain ⟨actions, hactions, hmem⟩ := (extracting_start r.numFacts r.operators x l goal).extract?_eq_some hx hlt
    (k := goal.length + (r.operators.map (fun o => o.pre.length)).sum) (by
      simp only [Extraction.start, List.length_reverse, Array.toList_replicate, spare_replicate, le_refl])
  have hsame : ascending actions = ascending ((r.relaxedPlan l goal).map Operator.action) := by
    refine ascending_congr fun a => ?_
    simp only [hmem, List.mem_map, mem_relaxedPlan hsize hlt]
    constructor
    · rintro ⟨f, o, hf, ho, ha⟩
      exact ⟨o, ⟨f, hf, ho⟩, ha⟩
    · rintro ⟨o, ⟨f, hf, ho⟩, ha⟩
      exact ⟨f, o, hf, ho, ha⟩
  unfold planLength?
  simp only [hactions, Option.bind_eq_bind, Option.bind_some, hsame]
  rfl

/-- **An estimate looks up nothing that is not there**, from any state and to any goal, and is the estimate. -/
theorem estimate?_eq_some (hr : ∀ o ∈ r.operators, o.Within r.numFacts) (s : State) (goal : Condition) :
    r.estimate? s goal = some (r.estimate s goal) := by
  unfold estimate? estimate
  split
  · rfl
  · split
    · rfl
    · rename_i hany
      have hgoal : ∀ g ∈ goal.positive, g < r.numFacts := by
        intro g hg
        by_contra hge
        exact hany (List.any_eq_true.2 ⟨g, hg, decide_eq_true (Nat.not_lt.1 hge)⟩)
      obtain ⟨x, hlabels, hx⟩ := labels?_eq_some hr s
      have hcosts : goal.positive.mapM (x.costs[·]?) = some (goal.positive.map (r.labels s).cost) :=
        mapM_eq_some fun g hg => hx.cost?_eq_some (hgoal g hg)
      simp only [hlabels, hcosts, planLength?_eq_some hr hx hgoal, hx.total?_eq_some hgoal, Option.bind_eq_bind,
        Option.bind_some, List.all_map]
      cases r.kind with
      | max => rfl
      | additive => rfl
      | fastForward =>
        simp only [Function.comp_def]
        split <;> rfl

/-- An operator that asks for a fact beyond the table. -/
example : (⟨.max, 1, [⟨0, [5], [0]⟩]⟩ : Relaxation).estimate? (.zero 1) ⟨[0], []⟩ = none := by decide

theorem estimate?_ofProblem {p : Problem} (hp : p.InTable) (name : HeuristicName) (s : State) (goal : Condition) :
    (ofProblem name p).estimate? s goal = some ((ofProblem name p).estimate s goal) :=
  estimate?_eq_some (fun _ ho => within_of_mem hp ho) s goal

end Relaxation
end GroundPlanner
