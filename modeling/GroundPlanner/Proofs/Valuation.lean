import GroundPlanner.Proofs.Renaming.Basic
import GroundPlanner.Proofs.Spelling
import GroundPlanner.Proofs.Walk
/-!
# Drafts by the names of their facts

A valuation says of each name whether its fact holds.  What a draft means can be told in valuations alone: where its
actions apply and what they lead to, without a number of a fact (`ActionDraft.applicable`, `ActionDraft.successor`).
The walks of a problem that is built from a draft are the walks of the draft (`Draft.Described.walk_holds`,
`Draft.Described.exists_walk`), so what is shown of a draft in names holds of the problem
(`Draft.Described.validate_iff`).  Where the facts of a draft are of known kinds, its actions apply and change the
valuation as these say (`ActionDraft.applicable_named`, `ActionDraft.successor_named`).
-/
namespace GroundPlanner

/-- Whether the fact of a name holds. -/
abbrev Valuation : Type :=
  String → Bool

namespace EffectDraft

/-- Whether the effect takes place. -/
def fires (e : EffectDraft) (v : Valuation) : Bool :=
  e.pre.all v && e.preNeg.all (fun n => !v n)

/-- Of a name that is both deleted and added, the adding counts. -/
def apply (e : EffectDraft) (v : Valuation) : Valuation :=
  fun n => v n && !decide (n ∈ e.del) || decide (n ∈ e.add)

end EffectDraft

namespace ActionDraft

def applicable (a : ActionDraft) (v : Valuation) : Bool :=
  a.pre.all v && a.preNeg.all (fun n => !v n)

/-- All guards are read before the first effect. -/
def successor (a : ActionDraft) (v : Valuation) : Valuation :=
  (a.sequence.filter (fun e => e.fires v)).foldl (fun v e => e.apply v) v

end ActionDraft

namespace Draft

def initial (d : Draft) : Valuation :=
  fun n => decide (n ∈ d.init)

def isGoal (d : Draft) (v : Valuation) : Bool :=
  d.goal.all v && d.goalNeg.all (fun n => !v n)

/-- The actions with indices `is`, taken in this order from `v`, are all applicable and lead to `w`. -/
inductive Walk (d : Draft) : Valuation → List Nat → Valuation → Prop where
  | nil (v : Valuation) : Walk d v [] v
  | cons {v w : Valuation} {i : Nat} {is : List Nat} {a : ActionDraft} (ha : d.actions[i]? = some a)
      (happ : a.applicable v = true) (hw : Walk d (a.successor v) is w) : Walk d v (i :: is) w

end Draft

/-- What a state says of the names; a name that stands for no fact does not hold. -/
def Problem.holds (p : Problem) (s : State) : Valuation :=
  fun n => (p.factId? n).any s.contains

variable {nameOf : FactId → Option String} {d : Draft} {p : Problem} {s : State} {n : String} {f : FactId}

theorem SpellsSet.forall_iff {fs : List FactId} {names : List String} {P : FactId → Prop} {Q : String → Prop}
    (h : SpellsSet nameOf fs names) (hPQ : ∀ f n, nameOf f = some n → (P f ↔ Q n)) :
    (∀ f ∈ fs, P f) ↔ ∀ n ∈ names, Q n := by
  constructor
  · intro hP n hn
    obtain ⟨f, hf, hname⟩ := List.mem_map.1 ((h (some n)).2 (List.mem_map_of_mem hn))
    exact (hPQ f n hname).1 (hP f hf)
  · intro hQ f hf
    obtain ⟨n, hn, hname⟩ := List.mem_map.1 ((h (nameOf f)).1 (List.mem_map_of_mem hf))
    exact (hPQ f n hname.symm).2 (hQ n hn)

theorem Spells.mem_iff {fs : List FactId} {names : List String} (h : Spells nameOf fs names) :
    n ∈ names ↔ ∃ f ∈ fs, nameOf f = some n := by
  rw [← List.mem_map, h, List.mem_map]
  simp

namespace Draft.Described

/-- A name and its fact. -/
theorem factId?_eq_some_iff (h : d.Described p) : p.factId? n = some f ↔ p.factName? f = some n := by
  constructor
  · intro hid
    obtain ⟨hlt, hget, -⟩ := List.idxOf?_eq_some_iff.1 hid
    rw [Problem.factName?, List.getElem?_eq_getElem hlt, hget]
  · intro hname
    have hlt : f < p.numFacts := (List.getElem?_eq_some_iff.1 hname).1
    have hid := h.factId f hlt
    rwa [hname, Option.bind_some] at hid

theorem holds_eq (h : d.Described p) (hname : p.factName? f = some n) (s : State) : p.holds s n = s.contains f := by
  rw [Problem.holds, h.factId?_eq_some_iff.2 hname, Option.any_some]

theorem satisfies_eq (h : d.Described p) {c : Condition} {pre preNeg : List String}
    (hpre : SpellsSet p.factName? c.positive pre) (hneg : SpellsSet p.factName? c.negative preNeg) (s : State) :
    s.satisfies c = (pre.all (p.holds s) && preNeg.all (fun n => !p.holds s n)) := by
  rw [Bool.eq_iff_iff, State.satisfies_iff, Bool.and_eq_true, List.all_eq_true, List.all_eq_true]
  refine and_congr (hpre.forall_iff fun f n hname => ?_) (hneg.forall_iff fun f n hname => ?_)
  · rw [h.holds_eq hname]
  · rw [h.holds_eq hname, Bool.not_eq_true']

theorem holds_init (h : d.Described p) : p.holds p.init = d.initial := by
  funext n
  have hmem : d.initial n = true ↔ ∃ f ∈ p.init.toList, p.factName? f = some n := by
    have hn := h.init (some n)
    rw [List.mem_map, List.mem_map] at hn
    rw [Draft.initial, decide_eq_true_eq, hn]
    simp
  rw [Bool.eq_iff_iff, hmem, Problem.holds, Option.any_eq_true]
  simp only [State.mem_toList, h.factId?_eq_some_iff]
  exact exists_congr fun f => and_comm

theorem isGoal_eq (h : d.Described p) (s : State) : p.isGoal s = d.isGoal (p.holds s) :=
  h.satisfies_eq h.goal h.goalNeg s

theorem applicable_eq (h : d.Described p) {a : ActionDraft} {b : Action} (hab : a.Spelled p.factName? b) (s : State) :
    b.applicable s = a.applicable (p.holds s) :=
  h.satisfies_eq hab.pre hab.preNeg s

theorem fires_eq (h : d.Described p) {e : EffectDraft} {g : GuardedEffect} (heg : e.Spelled p.factName? g) (s : State) :
    s.satisfies g.guard = e.fires (p.holds s) :=
  h.satisfies_eq heg.pre heg.preNeg s

theorem holds_apply (h : d.Described p) {e : EffectDraft} {g : GuardedEffect} (heg : e.Spelled p.factName? g)
    (hg : g.effect.Below p.numFacts) (hs : p.numFacts ≤ s.capacity) :
    p.holds (s.apply g.effect) = e.apply (p.holds s) := by
  funext n
  cases hid : p.factId? n with
  | none =>
    have hout : n ∉ e.add := by
      intro hn
      obtain ⟨f, -, hname⟩ := heg.add.mem_iff.1 hn
      rw [h.factId?_eq_some_iff.2 hname] at hid
      cases hid
    simp [Problem.holds, EffectDraft.apply, hid, hout]
  | some f =>
    have hname := h.factId?_eq_some_iff.1 hid
    -- In the table a name has one fact only.
    have hmem : ∀ {fs : List FactId} {names : List String}, Spells p.factName? fs names → (f ∈ fs ↔ n ∈ names) := by
      intro fs names hspells
      rw [hspells.mem_iff]
      constructor
      · exact fun hf => ⟨f, hf, hname⟩
      · rintro ⟨g, hg, hg'⟩
        rw [← h.factId?_eq_some_iff, hid] at hg'
        exact Option.some.inj hg' ▸ hg
    rw [h.holds_eq hname, State.contains_apply hs hg, EffectDraft.apply, h.holds_eq hname]
    simp only [hmem heg.add, hmem heg.del]

/-- Effects whose guards are read in one state, done in another. -/
theorem holds_foldl (h : d.Described p) {es : List EffectDraft} {gs : List GuardedEffect}
    (hes : List.Forall₂ (EffectDraft.Spelled p.factName?) es gs) (hgs : ∀ g ∈ gs, g.Below p.numFacts) (s : State)
    {t : State} (ht : p.numFacts ≤ t.capacity) :
    p.holds (((gs.filter (fun g => s.satisfies g.guard)).map GuardedEffect.effect).foldl State.apply t) =
      (es.filter (fun e => e.fires (p.holds s))).foldl (fun v e => e.apply v) (p.holds t) := by
  induction hes generalizing t with
  | nil => rfl
  | @cons e g es gs heg _ ih =>
    have hg := hgs g List.mem_cons_self
    have hgs' := fun g' hg' => hgs g' (List.mem_cons_of_mem g hg')
    rw [List.filter_cons, List.filter_cons, h.fires_eq heg]
    split
    · have ht' : p.numFacts ≤ (t.apply g.effect).capacity := by rwa [State.capacity, State.words_apply]
      rw [List.map_cons, List.foldl_cons, List.foldl_cons, ih hgs' ht', h.holds_apply heg hg.2 ht]
    · exact ih hgs' ht

/-- **An action does to the names what its draft says.** -/
theorem holds_successor (h : d.Described p) {a : ActionDraft} {b : Action} (hab : a.Spelled p.factName? b)
    (hb : b.Below p.numFacts) (hs : p.numFacts ≤ s.capacity) :
    p.holds (b.successor s) = a.successor (p.holds s) :=
  h.holds_foldl hab.effects hb.2 s hs

/-! ## Walks -/

section Walks

variable {t : State} {is : List Nat} {v w : Valuation}

/-- The two lists of actions go together, index by index. -/
theorem action_of_draft (h : d.Described p) {i : Nat} {a : ActionDraft} (ha : d.actions[i]? = some a) :
    ∃ b, p.actions[i]? = some b ∧ a.Spelled p.factName? b := by
  obtain ⟨hi, rfl⟩ := List.getElem?_eq_some_iff.1 ha
  have hi' : i < p.actions.length := h.actions.length_eq ▸ hi
  exact ⟨_, List.getElem?_eq_getElem hi', h.actions.get hi hi'⟩

theorem draft_of_action (h : d.Described p) {i : Nat} {b : Action} (hb : p.actions[i]? = some b) :
    ∃ a, d.actions[i]? = some a ∧ a.Spelled p.factName? b := by
  obtain ⟨hi, rfl⟩ := List.getElem?_eq_some_iff.1 hb
  have hi' : i < d.actions.length := h.actions.length_eq ▸ hi
  exact ⟨_, List.getElem?_eq_getElem hi', h.actions.get hi' hi⟩

theorem walk_holds (h : d.Described p) (hp : p.InTable) (hs : p.numFacts ≤ s.capacity) (hw : p.Walk s is t) :
    d.Walk (p.holds s) is (p.holds t) := by
  induction hw with
  | nil s => exact .nil _
  | @cons s t i is b hb happ _ ih =>
    obtain ⟨a, ha, hab⟩ := h.draft_of_action hb
    have hs' : p.numFacts ≤ (b.successor s).capacity := by rwa [State.capacity, Action.words_successor]
    refine .cons ha (h.applicable_eq hab s ▸ happ) ?_
    rw [← h.holds_successor hab (hp.actions b (List.mem_of_getElem? hb)) hs]
    exact ih hs'

theorem exists_walk (h : d.Described p) (hp : p.InTable) (hs : p.numFacts ≤ s.capacity)
    (hw : d.Walk (p.holds s) is w) : ∃ t, p.Walk s is t ∧ p.holds t = w := by
  generalize hv : p.holds s = v at hw
  induction hw generalizing s with
  | nil v => exact ⟨s, .nil s, hv⟩
  | @cons v w i is a ha happ _ ih =>
    obtain ⟨b, hb, hab⟩ := h.action_of_draft ha
    have hs' : p.numFacts ≤ (b.successor s).capacity := by rwa [State.capacity, Action.words_successor]
    have hv' : p.holds (b.successor s) = a.successor v := by
      rw [h.holds_successor hab (hp.actions b (List.mem_of_getElem? hb)) hs, hv]
    obtain ⟨t, ht, hholds⟩ := ih hs' hv'
    exact ⟨t, .cons hb (by rw [h.applicable_eq hab, hv, happ]) ht, hholds⟩

/-- **The valid plans of a built problem are the walks of its draft to a goal.** -/
theorem validate_iff (h : d.Described p) (hp : p.InTable) {plan : Plan} :
    plan.validate p = .ok () ↔ ∃ w, d.Walk d.initial plan.steps w ∧ d.isGoal w = true := by
  rw [Plan.validate_eq_ok_iff, ← h.holds_init]
  constructor
  · rintro ⟨t, hw, hgoal⟩
    exact ⟨p.holds t, h.walk_holds hp hp.numFacts_le hw, h.isGoal_eq t ▸ hgoal⟩
  · rintro ⟨w, hw, hgoal⟩
    obtain ⟨t, ht, rfl⟩ := h.exists_walk hp hp.numFacts_le hw
    exact ⟨t, ht, h.isGoal_eq t ▸ hgoal⟩

end Walks

/-! ## Reachable states -/

section Reachable

variable {t : State}

theorem options_eq_nil_iff (h : d.Described p) (s : State) :
    p.options s = [] ↔ ∀ a ∈ d.actions, a.applicable (p.holds s) = false := by
  rw [Problem.options_eq_nil_iff]
  constructor
  · intro hnone a ha
    obtain ⟨i, hi⟩ := List.mem_iff_getElem?.1 ha
    obtain ⟨b, hb, hab⟩ := h.action_of_draft hi
    rw [← h.applicable_eq hab, hnone b (List.mem_of_getElem? hb)]
  · intro hnone b hb
    obtain ⟨i, hi⟩ := List.mem_iff_getElem?.1 hb
    obtain ⟨a, ha, hab⟩ := h.draft_of_action hi
    rw [h.applicable_eq hab, hnone a (List.mem_of_getElem? ha)]

theorem numFacts_le_capacity (hp : p.InTable) (ht : p.Reachable t) : p.numFacts ≤ t.capacity := by
  rw [State.capacity, ht.words_eq]
  exact hp.numFacts_le

/-- **What holds at the start of a draft and after each of its actions holds of all reachable states.** -/
theorem reachable_holds (h : d.Described p) (hp : p.InTable) {I : Valuation → Prop} (hinit : I d.initial)
    (hstep : ∀ v, I v → ∀ a ∈ d.actions, a.applicable v = true → I (a.successor v)) (ht : p.Reachable t) :
    I (p.holds t) := by
  refine (ht.induct (I := fun t => p.Reachable t ∧ I (p.holds t)) ⟨⟨[], .nil _⟩, h.holds_init ▸ hinit⟩ ?_).2
  rintro t ⟨i, u⟩ ⟨hreach, ht⟩ hx
  obtain ⟨b, hb, happ, rfl⟩ := Problem.mem_successors.1 hx
  obtain ⟨a, ha, hab⟩ := h.draft_of_action hb
  obtain ⟨is, hw⟩ := hreach
  have hbelow := hp.actions b (List.mem_of_getElem? hb)
  rw [h.applicable_eq hab] at happ
  refine ⟨⟨is ++ [i], hw.concat hb (h.applicable_eq hab t ▸ happ)⟩, ?_⟩
  rw [h.holds_successor hab hbelow (numFacts_le_capacity hp ⟨is, hw⟩)]
  exact hstep _ ht a (List.mem_of_getElem? ha) happ

/-- One action more. -/
theorem exists_reachable (h : d.Described p) (hp : p.InTable) (ht : p.Reachable t) {a : ActionDraft}
    (ha : a ∈ d.actions) (happ : a.applicable (p.holds t) = true) :
    ∃ u, p.Reachable u ∧ p.holds u = a.successor (p.holds t) := by
  obtain ⟨i, hi⟩ := List.mem_iff_getElem?.1 ha
  obtain ⟨b, hb, hab⟩ := h.action_of_draft hi
  obtain ⟨is, hw⟩ := id ht
  have hbelow := hp.actions b (List.mem_of_getElem? hb)
  exact ⟨b.successor t, ⟨is ++ [i], hw.concat hb (h.applicable_eq hab t ▸ happ)⟩,
    h.holds_successor hab hbelow (numFacts_le_capacity hp ht)⟩

/-- States that say the same of the declared names are the same. -/
theorem ext_holds (h : d.Described p) (hw : s.words = t.words) (hs : ∀ f, s.contains f = true → f < p.numFacts)
    (ht : ∀ f, t.contains f = true → f < p.numFacts) (heq : ∀ n ∈ d.declared, p.holds s n = p.holds t n) : s = t := by
  refine State.ext_contains hw fun f => ?_
  by_cases hf : f < p.numFacts
  · have hname : p.factName? f = some p.facts[f] := List.getElem?_eq_getElem hf
    have hdeclared : p.facts[f] ∈ d.declared := by
      rw [← List.mem_eraseDups, ← h.facts]
      exact List.getElem_mem hf
    rw [← h.holds_eq hname, ← h.holds_eq hname, heq _ hdeclared]
  · rw [Bool.eq_false_iff.2 fun hc => hf (hs f hc), Bool.eq_false_iff.2 fun hc => hf (ht f hc)]

end Reachable
end Draft.Described

/-! ## Facts and actions by kinds -/

/-- **A draft whose facts and actions are of known kinds**: it declares what is mentioned, and the names of its actions
tell them apart. -/
structure Draft.Kinds {F A : Type} (d : Draft) (name : F → String) (draft : A → ActionDraft) where
  facts : List F
  init : List F
  goal : List F
  acts : List A
  mentioned : A → List F
  facts_eq : d.facts = some (facts.map name)
  init_eq : d.init = init.map name
  goal_eq : d.goal = goal.map name
  goalNeg_eq : d.goalNeg = []
  actions_eq : d.actions = acts.map draft
  mentioned_eq : ∀ a, (draft a).mentioned = (mentioned a).map name
  init_subset : ∀ f ∈ init, f ∈ facts
  goal_subset : ∀ f ∈ goal, f ∈ facts
  mentioned_subset : ∀ a ∈ acts, ∀ f ∈ mentioned a, f ∈ facts
  nodup : acts.Nodup
  name_injective : Function.Injective (fun a => (draft a).name)

/-- **A draft by kinds builds.** -/
theorem Draft.Kinds.exists_build {F A : Type} {d : Draft} {name : F → String} {draft : A → ActionDraft}
    (k : d.Kinds name draft) : ∃ p, d.build = .ok p := by
  have hmentions : d.mentions = (k.init ++ k.goal ++ k.acts.flatMap k.mentioned).map name := by
    simp only [mentions, k.init_eq, k.goal_eq, k.goalNeg_eq, k.actions_eq, List.append_nil, List.map_append,
      List.flatMap_map, List.map_flatMap, k.mentioned_eq]
  have hdeclared : d.declared = k.facts.map name := by rw [declared, k.facts_eq, Option.getD_some]
  rw [exists_build_iff, hmentions, hdeclared, k.actions_eq, List.map_map]
  refine ⟨fun n hn => ?_, k.nodup.map k.name_injective⟩
  obtain ⟨f, hf, rfl⟩ := List.mem_map.1 hn
  refine List.mem_map_of_mem ?_
  simp only [List.mem_append, List.mem_flatMap] at hf
  rcases hf with (hf | hf) | ⟨a, ha, hf⟩
  · exact k.init_subset f hf
  · exact k.goal_subset f hf
  · exact k.mentioned_subset a ha f hf

section Plain

variable {F : Type} [DecidableEq F] {name : F → String} {a : ActionDraft}

omit [DecidableEq F] in
theorem ActionDraft.applicable_named {v : Valuation} {holds : F → Bool} (h : ∀ f, v (name f) = holds f)
    (pre preNeg : List F) (hpre : a.pre = pre.map name) (hneg : a.preNeg = preNeg.map name) :
    a.applicable v = (pre.all holds && preNeg.all (fun f => !holds f)) := by
  rw [applicable, hpre, hneg, List.all_map, List.all_map]
  simp only [Function.comp_def, h]

/-- An action without conditional effects. -/
theorem ActionDraft.successor_plain (h : a.when = []) (v : Valuation) :
    a.successor v = fun n => v n && !decide (n ∈ a.del) || decide (n ∈ a.add) := by
  unfold successor sequence
  rw [h, List.append_nil]
  split
  · rename_i hempty
    rw [hempty.1, hempty.2]
    funext n
    simp
  · rfl

/-- **Different facts of a family have different names**, so its actions change them as facts. -/
theorem ActionDraft.successor_named (hname : Function.Injective name) (h : a.when = []) (add del : List F)
    (hadd : a.add = add.map name) (hdel : a.del = del.map name) (v : Valuation) (f : F) :
    a.successor v (name f) = (v (name f) && !decide (f ∈ del) || decide (f ∈ add)) := by
  rw [successor_plain h, hadd, hdel]
  simp only [List.mem_map_of_injective hname]

end Plain
end GroundPlanner
