import GroundPlanner.Problem.Families
import GroundPlanner.Proofs.Faults
import GroundPlanner.Proofs.Naming
/-!
# What a built problem says in names

Read back through the fact table, a problem says what its draft said (`Draft.Described`): effects are spelled in the
order of their lists, states and conditions as sets.  Together with the faults this settles what building a draft gives
(`Draft.build_resolves`).
-/
namespace GroundPlanner

variable {table : List String} {context : FactContext} {nameOf : FactId → Option String}

/-! ## Spelling -/

/-- The facts have these names, one by one. -/
def Spells (nameOf : FactId → Option String) (fs : List FactId) (names : List String) : Prop :=
  fs.map nameOf = names.map some

/-- The facts have these names, in any order and with any repetitions. -/
def SpellsSet (nameOf : FactId → Option String) (fs : List FactId) (names : List String) : Prop :=
  ∀ n, n ∈ fs.map nameOf ↔ n ∈ names.map some

theorem Spells.set {fs fs' : List FactId} {names : List String} (h : Spells nameOf fs names)
    (hfs : ∀ f, f ∈ fs' ↔ f ∈ fs) : SpellsSet nameOf fs' names := by
  intro n
  rw [← h]
  simp only [List.mem_map, hfs]

theorem spells_of_resolve {names : List String} {fs : List FactId} (h : resolve table context names = .ok fs) :
    Spells (table[·]?) fs names := by
  rw [resolve_eq_ok_iff, ← List.forall₂_eq_eq_eq, List.forall₂_map_left_iff, List.forall₂_map_right_iff] at h
  rw [Spells, ← List.forall₂_eq_eq_eq, List.forall₂_map_left_iff, List.forall₂_map_right_iff]
  refine h.flip.imp fun f n hf => ?_
  obtain ⟨hlt, hget, -⟩ := List.idxOf?_eq_some_iff.1 hf
  rw [List.getElem?_eq_getElem hlt, hget]

/-! ## Effects and actions -/

/-- **The effects of an action in the order of their application**: the unconditional one, unless it is empty, and then
the conditional ones. -/
def ActionDraft.sequence (a : ActionDraft) : List EffectDraft :=
  (if a.add = [] ∧ a.del = [] then [] else [{ add := a.add, del := a.del }]) ++ a.when

structure EffectDraft.Spelled (nameOf : FactId → Option String) (e : EffectDraft) (g : GuardedEffect) : Prop where
  pre : SpellsSet nameOf g.guard.positive e.pre
  preNeg : SpellsSet nameOf g.guard.negative e.preNeg
  add : Spells nameOf g.effect.add e.add
  del : Spells nameOf g.effect.delete e.del

structure ActionDraft.Spelled (nameOf : FactId → Option String) (a : ActionDraft) (b : Action) : Prop where
  name : b.name = a.name
  pre : SpellsSet nameOf b.precondition.positive a.pre
  preNeg : SpellsSet nameOf b.precondition.negative a.preNeg
  effects : List.Forall₂ (EffectDraft.Spelled nameOf) a.sequence b.effects

theorem EffectDraft.build_eq_ok_iff {e : EffectDraft} {g : GuardedEffect} : e.build table context = .ok g ↔
    ∃ pre preNeg add del, resolve table context e.pre = .ok pre ∧ resolve table context e.preNeg = .ok preNeg ∧
      resolve table context e.add = .ok add ∧ resolve table context e.del = .ok del ∧
      g = ⟨.of pre preNeg, ⟨add, del⟩⟩ := by
  unfold EffectDraft.build
  constructor
  · intro h
    obtain ⟨pre, hpre, h⟩ := bind_eq_ok.1 h
    obtain ⟨preNeg, hpreNeg, h⟩ := bind_eq_ok.1 h
    obtain ⟨add, hadd, h⟩ := bind_eq_ok.1 h
    obtain ⟨del, hdel, h⟩ := bind_eq_ok.1 h
    cases h
    exact ⟨pre, preNeg, add, del, hpre, hpreNeg, hadd, hdel, rfl⟩
  · rintro ⟨pre, preNeg, add, del, hpre, hpreNeg, hadd, hdel, rfl⟩
    rw [hpre, hpreNeg, hadd, hdel]
    rfl

theorem EffectDraft.build_spelled {e : EffectDraft} {g : GuardedEffect} (h : e.build table context = .ok g) :
    e.Spelled (table[·]?) g := by
  obtain ⟨pre, preNeg, add, del, hpre, hpreNeg, hadd, hdel, rfl⟩ := build_eq_ok_iff.1 h
  exact ⟨(spells_of_resolve hpre).set fun _ => mem_ascending, (spells_of_resolve hpreNeg).set fun _ => mem_ascending,
    spells_of_resolve hadd, spells_of_resolve hdel⟩

theorem EffectDraft.buildAll_eq_ok_iff {es : List EffectDraft} {gs : List GuardedEffect} :
    buildAll table context es = .ok gs ↔ List.Forall₂ (fun e g => e.build table context = .ok g) es gs := by
  induction es generalizing gs with
  | nil =>
    rw [buildAll, List.forall₂_nil_left_iff, Except.ok.injEq]
    exact eq_comm
  | cons e es ih =>
    rw [List.forall₂_cons_left_iff]
    constructor
    · intro h
      obtain ⟨g, hg, h⟩ := bind_eq_ok.1 h
      obtain ⟨gs', hgs, h⟩ := bind_eq_ok.1 h
      cases h
      exact ⟨g, gs', hg, ih.1 hgs, rfl⟩
    · rintro ⟨g, gs', hg, hgs, rfl⟩
      exact bind_eq_ok.2 ⟨g, hg, bind_eq_ok.2 ⟨gs', ih.2 hgs, rfl⟩⟩

/-- **An action is built from its precondition and the sequence of its effects.** -/
theorem ActionDraft.build_eq_ok {a : ActionDraft} {b : Action} (h : a.build table = .ok b) : b.name = a.name ∧
    (∃ pre preNeg, resolve table (.action a.name) a.pre = .ok pre ∧
      resolve table (.action a.name) a.preNeg = .ok preNeg ∧ b.precondition = .of pre preNeg) ∧
    List.Forall₂ (fun e g => e.build table (.action a.name) = .ok g) a.sequence b.effects := by
  unfold ActionDraft.build at h
  obtain ⟨pre, hpre, h⟩ := bind_eq_ok.1 h
  obtain ⟨preNeg, hpreNeg, h⟩ := bind_eq_ok.1 h
  obtain ⟨add, hadd, h⟩ := bind_eq_ok.1 h
  obtain ⟨del, hdel, h⟩ := bind_eq_ok.1 h
  obtain ⟨conditional, hcond, h⟩ := bind_eq_ok.1 h
  cases h
  refine ⟨rfl, ⟨pre, preNeg, hpre, hpreNeg, rfl⟩, ?_⟩
  rw [EffectDraft.buildAll_eq_ok_iff] at hcond
  have hempty : (Effect.mk add del).isEmpty = true ↔ a.add = [] ∧ a.del = [] := by
    rw [← List.map_eq_nil_iff (f := some) (l := a.add), ← List.map_eq_nil_iff (f := some) (l := a.del),
      ← spells_of_resolve hadd, ← spells_of_resolve hdel]
    simp [Effect.isEmpty]
  unfold sequence
  by_cases he : a.add = [] ∧ a.del = []
  · simpa only [hempty.2 he, he, and_self, if_true, List.nil_append] using hcond
  · simp only [mt hempty.1 he, he, if_false]
    refine .cons (EffectDraft.build_eq_ok_iff.2 ⟨[], [], add, del, rfl, rfl, hadd, hdel, rfl⟩) hcond

theorem ActionDraft.build_spelled {a : ActionDraft} {b : Action} (h : a.build table = .ok b) :
    a.Spelled (table[·]?) b := by
  obtain ⟨hname, ⟨pre, preNeg, hpre, hpreNeg, hcond⟩, heffects⟩ := build_eq_ok h
  refine ⟨hname, ?_, ?_, heffects.imp fun _ _ => EffectDraft.build_spelled⟩
  · rw [hcond]
    exact (spells_of_resolve hpre).set fun _ => mem_ascending
  · rw [hcond]
    exact (spells_of_resolve hpreNeg).set fun _ => mem_ascending

theorem ActionDraft.buildAll_spelled {prior : List String} {as : List ActionDraft} {bs : List Action}
    (h : buildAll table prior as = .ok bs) : List.Forall₂ (ActionDraft.Spelled (table[·]?)) as bs := by
  induction as generalizing prior bs with
  | nil =>
    cases h
    exact .nil
  | cons a as ih =>
    unfold buildAll at h
    split at h
    · cases h
    · obtain ⟨b, hb, h⟩ := bind_eq_ok.1 h
      obtain ⟨bs', hbs, h⟩ := bind_eq_ok.1 h
      cases h
      exact .cons (build_spelled hb) (ih hbs)

/-! ## The fact table -/

/-- The names that a draft has for facts: those that it declares, or else all that it mentions. -/
def Draft.declared (d : Draft) : List String :=
  d.facts.getD d.mentions

theorem Draft.table_eq (d : Draft) : d.table = d.declared.eraseDups := by
  unfold table declared mentioned
  cases d.facts <;> exact distinct_eq_eraseDups _

/-- **In a table without repetitions every fact is found under its name.** -/
theorem Problem.factId?_factName? {p : Problem} (h : p.facts.Nodup) {f : FactId} (hf : f < p.numFacts) :
    (p.factName? f).bind p.factId? = some f := by
  unfold numFacts at hf
  rw [factName?, List.getElem?_eq_getElem hf, Option.bind_some, factId?, List.idxOf?_eq_some_iff]
  exact ⟨hf, rfl, fun j hj heq => Nat.ne_of_lt hj (h.getElem_inj_iff.1 heq)⟩

theorem Problem.actionIndex?_name {p : Problem} (h : (p.actions.map Action.name).Nodup) {i : Nat} {a : Action}
    (ha : p.actions[i]? = some a) : p.actionIndex? a.name = some i := by
  obtain ⟨hi, rfl⟩ := List.getElem?_eq_some_iff.1 ha
  rw [actionIndex?, List.findIdx?_eq_some_iff_getElem]
  refine ⟨hi, beq_self_eq_true _, fun j hj hname => Nat.ne_of_lt hj ?_⟩
  have hi' : i < (p.actions.map Action.name).length := by rwa [List.length_map]
  have hj' : j < (p.actions.map Action.name).length := Nat.lt_trans hj hi'
  have hname : (p.actions.map Action.name)[j] = (p.actions.map Action.name)[i] := by simpa using hname
  exact h.getElem_inj_iff.1 hname

/-! ## Building -/

/-- **What a built problem says of its draft.** -/
structure Draft.Described (d : Draft) (p : Problem) : Prop where
  facts : p.facts = d.declared.eraseDups
  factId : ∀ f < p.numFacts, (p.factName? f).bind p.factId? = some f
  names : p.actions.map Action.name = d.actions.map ActionDraft.name
  actionIndex : ∀ i a, p.actions[i]? = some a → p.actionIndex? a.name = some i
  init : SpellsSet p.factName? p.init.toList d.init
  goal : SpellsSet p.factName? p.goal.positive d.goal
  goalNeg : SpellsSet p.factName? p.goal.negative d.goalNeg
  actions : List.Forall₂ (ActionDraft.Spelled p.factName?) d.actions p.actions

theorem Draft.exists_build_iff {d : Draft} : (∃ p, d.build = .ok p) ↔
    (∀ n ∈ d.mentions, n ∈ d.declared) ∧ (d.actions.map ActionDraft.name).Nodup := by
  rw [← faultOf_eq_none_iff, faultOf_build, List.head?_eq_none_iff, faults_eq_nil_iff, table_eq]
  simp only [List.mem_eraseDups]

theorem Draft.build_described {d : Draft} {p : Problem} (h : d.build = .ok p) : d.Described p := by
  have hdistinct := (exists_build_iff.1 ⟨p, h⟩).2
  unfold build at h
  obtain ⟨init, hinit, h⟩ := bind_eq_ok.1 h
  obtain ⟨goal, hgoal, h⟩ := bind_eq_ok.1 h
  obtain ⟨goalNeg, hgoalNeg, h⟩ := bind_eq_ok.1 h
  obtain ⟨actions, hactions, h⟩ := bind_eq_ok.1 h
  cases h
  have hspelled := ActionDraft.buildAll_spelled hactions
  have hnames : actions.map Action.name = d.actions.map ActionDraft.name := by
    have h : List.Forall₂ (fun b a => b.name = a.name) actions d.actions := (hspelled.imp fun _ _ h => h.name).flip
    rwa [← List.forall₂_map_right_iff, ← List.forall₂_map_left_iff, List.forall₂_eq_eq_eq] at h
  have hnodup : d.table.Nodup := by
    unfold table mentioned
    split <;> exact nodup_distinct _
  exact {
    facts := d.table_eq
    factId := fun f hf => Problem.factId?_factName? hnodup hf
    names := hnames
    actionIndex := fun i a ha => Problem.actionIndex?_name (by rwa [hnames]) ha
    init := (spells_of_resolve hinit).set fun f => by
      rw [State.mem_toList, State.contains_ofFacts (resolve_lt hinit), decide_eq_true_eq]
    goal := (spells_of_resolve hgoal).set fun _ => mem_ascending
    goalNeg := (spells_of_resolve hgoalNeg).set fun _ => mem_ascending
    actions := hspelled }

/-- **What building a draft gives**: a problem if every name is declared and the actions differ in name, and else the
first of its faults.  The problem says in numbers what the draft says in names. -/
theorem Draft.build_resolves (d : Draft) :
    ((∃ p, d.build = .ok p) ↔ (∀ n ∈ d.mentions, n ∈ d.declared) ∧ (d.actions.map ActionDraft.name).Nodup) ∧
      (∀ fault, d.build = .error fault ↔ d.faults.head? = some fault) ∧ ∀ p, d.build = .ok p → d.Described p :=
  ⟨exists_build_iff, fun fault => by rw [← faultOf_build, faultOf_eq_some_iff], fun _ => build_described⟩

/-- The lamp is built, and its facts go by their places.  With two plugs it is not: that they share a name is found
before the socket that the second asks for. -/
theorem Draft.build_resolves_lamp :
    (∃ p, Families.conditionalLamp.build = .ok p ∧ p.facts = ["power", "light"] ∧
      p.actions.map Action.name = ["press", "plug"] ∧ Families.conditionalLamp.Described p) ∧
    { Families.conditionalLamp with actions := [{ name := "plug" }, { name := "plug", pre := ["socket"] }] }.build =
      .error (.duplicateAction "plug" 0 1) := by
  obtain ⟨hbuilt, -, hdescribed⟩ := build_resolves Families.conditionalLamp
  obtain ⟨p, hp⟩ := hbuilt.2 (by decide +kernel)
  have hp' := hdescribed p hp
  refine ⟨⟨p, hp, hp'.facts.trans (by decide +kernel), hp'.names.trans (by decide +kernel), hp'⟩, ?_⟩
  exact ((build_resolves _).2.1 _).2 (by decide +kernel)

end GroundPlanner
