import GroundPlanner.Problem.Draft
/-!
# Problems built from drafts

All facts of a built problem stand in its fact table (`build_inTable`): resolving a name gives the place of an entry,
and every list of facts is resolved.
-/
namespace GroundPlanner

/-- The facts of a condition are below a bound. -/
def Condition.Below (n : Nat) (c : Condition) : Prop :=
  (∀ f ∈ c.positive, f < n) ∧ ∀ f ∈ c.negative, f < n

def Effect.Below (n : Nat) (e : Effect) : Prop :=
  (∀ f ∈ e.add, f < n) ∧ ∀ f ∈ e.delete, f < n

def GuardedEffect.Below (n : Nat) (e : GuardedEffect) : Prop :=
  e.guard.Below n ∧ e.effect.Below n

def Action.Below (n : Nat) (a : Action) : Prop :=
  a.precondition.Below n ∧ ∀ e ∈ a.effects, e.Below n

/-- **All facts of a problem stand in its fact table.** -/
structure Problem.InTable (p : Problem) : Prop where
  init : ∀ f, p.init.contains f = true → f < p.numFacts
  width : p.init.words = State.wordsFor p.numFacts
  goal : p.goal.Below p.numFacts
  actions : ∀ a ∈ p.actions, a.Below p.numFacts

/-! ## Resolving -/

theorem bind_eq_ok {ε α β : Type} {x : Except ε α} {f : α → Except ε β} {b : β} :
    (x >>= f) = .ok b ↔ ∃ a, x = .ok a ∧ f a = .ok b := by
  cases x with
  | error e =>
    constructor
    · intro h
      cases h
    · rintro ⟨a, h, -⟩
      cases h
  | ok a =>
    constructor
    · exact fun h => ⟨a, rfl, h⟩
    · rintro ⟨a', ha, h⟩
      cases ha
      exact h

theorem resolve_lt {table : List String} {context : FactContext} {names : List String} {fs : List FactId}
    (h : resolve table context names = .ok fs) : ∀ f ∈ fs, f < table.length := by
  induction names generalizing fs with
  | nil =>
    cases h
    exact fun _ hf => by cases hf
  | cons n names ih =>
    unfold resolve at h
    split at h
    · cases h
    · rename_i f hf
      obtain ⟨fs', hfs, h⟩ := bind_eq_ok.1 h
      cases h
      intro g hg
      rcases List.mem_cons.1 hg with rfl | hg
      · exact (List.findIdx?_eq_some_iff_findIdx_eq.1 hf).1
      · exact ih hfs g hg

theorem Condition.below_of {n : Nat} {positive negative : List FactId} (hp : ∀ f ∈ positive, f < n)
    (hn : ∀ f ∈ negative, f < n) : (Condition.of positive negative).Below n :=
  ⟨fun f hf => hp f (mem_ascending.1 hf), fun f hf => hn f (mem_ascending.1 hf)⟩

theorem Condition.below_trivial (n : Nat) : Condition.trivial.Below n :=
  ⟨fun _ hf => absurd hf List.not_mem_nil, fun _ hf => absurd hf List.not_mem_nil⟩

theorem EffectDraft.build_below {table : List String} {context : FactContext} {e : EffectDraft} {g : GuardedEffect}
    (h : e.build table context = .ok g) : g.Below table.length := by
  unfold EffectDraft.build at h
  obtain ⟨pre, hpre, h⟩ := bind_eq_ok.1 h
  obtain ⟨preNeg, hpreNeg, h⟩ := bind_eq_ok.1 h
  obtain ⟨add, hadd, h⟩ := bind_eq_ok.1 h
  obtain ⟨del, hdel, h⟩ := bind_eq_ok.1 h
  cases h
  exact ⟨Condition.below_of (resolve_lt hpre) (resolve_lt hpreNeg), resolve_lt hadd, resolve_lt hdel⟩

theorem EffectDraft.buildAll_below {table : List String} {context : FactContext} {es : List EffectDraft}
    {gs : List GuardedEffect} (h : buildAll table context es = .ok gs) : ∀ g ∈ gs, g.Below table.length := by
  induction es generalizing gs with
  | nil =>
    cases h
    exact fun _ hg => by cases hg
  | cons e es ih =>
    unfold buildAll at h
    obtain ⟨g, hg, h⟩ := bind_eq_ok.1 h
    obtain ⟨gs', hgs, h⟩ := bind_eq_ok.1 h
    cases h
    intro g' hg'
    rcases List.mem_cons.1 hg' with rfl | hg'
    · exact build_below hg
    · exact ih hgs g' hg'

theorem ActionDraft.build_below {table : List String} {a : ActionDraft} {b : Action} (h : a.build table = .ok b) :
    b.Below table.length := by
  unfold ActionDraft.build at h
  obtain ⟨pre, hpre, h⟩ := bind_eq_ok.1 h
  obtain ⟨preNeg, hpreNeg, h⟩ := bind_eq_ok.1 h
  obtain ⟨add, hadd, h⟩ := bind_eq_ok.1 h
  obtain ⟨del, hdel, h⟩ := bind_eq_ok.1 h
  obtain ⟨conditional, hcond, h⟩ := bind_eq_ok.1 h
  cases h
  refine ⟨Condition.below_of (resolve_lt hpre) (resolve_lt hpreNeg), fun e he => ?_⟩
  have hcond := EffectDraft.buildAll_below hcond
  simp only at he
  split at he
  · exact hcond e he
  · rcases List.mem_cons.1 he with rfl | he
    · exact ⟨Condition.below_trivial _, resolve_lt hadd, resolve_lt hdel⟩
    · exact hcond e he

theorem ActionDraft.buildAll_below {table prior : List String} {as : List ActionDraft} {bs : List Action}
    (h : buildAll table prior as = .ok bs) : ∀ b ∈ bs, b.Below table.length := by
  induction as generalizing prior bs with
  | nil =>
    cases h
    exact fun _ hb => by cases hb
  | cons a as ih =>
    unfold buildAll at h
    split at h
    · cases h
    · obtain ⟨b, hb, h⟩ := bind_eq_ok.1 h
      obtain ⟨bs', hbs, h⟩ := bind_eq_ok.1 h
      cases h
      intro b' hb'
      rcases List.mem_cons.1 hb' with rfl | hb'
      · exact build_below hb
      · exact ih hbs b' hb'

theorem State.contains_ofFacts {n : Nat} {fs : List FactId} (h : ∀ f ∈ fs, f < n) (f : FactId) :
    (ofFacts n fs).contains f = decide (f ∈ fs) := by
  rw [ofFacts, contains_insertAll, contains_empty, Bool.false_or]
  by_cases hf : f ∈ fs
  · rw [decide_eq_true (Nat.lt_of_lt_of_le (h f hf) (le_capacity_empty n)), Bool.and_true]
  · rw [decide_eq_false hf, Bool.false_and]

/-- An effect on facts that can all be held. -/
theorem State.contains_apply {n : Nat} {s : State} {e : Effect} (hn : n ≤ s.capacity) (he : e.Below n) (f : FactId) :
    (s.apply e).contains f = (s.contains f && !decide (f ∈ e.delete) || decide (f ∈ e.add)) := by
  apply contains_apply_of_lt
  intro g hg
  exact Nat.lt_of_lt_of_le (he.1 g hg) hn

/-- **The facts of a built problem stand in its table.** -/
theorem Draft.build_inTable {d : Draft} {p : Problem} (h : d.build = .ok p) : p.InTable := by
  unfold Draft.build at h
  obtain ⟨init, hinit, h⟩ := bind_eq_ok.1 h
  obtain ⟨goal, hgoal, h⟩ := bind_eq_ok.1 h
  obtain ⟨goalNeg, hgoalNeg, h⟩ := bind_eq_ok.1 h
  obtain ⟨actions, hactions, h⟩ := bind_eq_ok.1 h
  cases h
  refine ⟨fun f hf => ?_, ?_, Condition.below_of (resolve_lt hgoal) (resolve_lt hgoalNeg),
    ActionDraft.buildAll_below hactions⟩
  · change (State.ofFacts d.table.length init).contains f = true at hf
    rw [State.contains_ofFacts (resolve_lt hinit), decide_eq_true_eq] at hf
    exact resolve_lt hinit f hf
  · exact State.words_insertAll _ _

/-- A draft builds a problem of which `P` holds, if building it says so. -/
theorem Draft.exists_build {d : Draft} (P : Problem → Bool)
    (h : (match d.build with
      | .ok p => P p
      | .error _ => false) = true) : ∃ p, d.build = .ok p ∧ P p = true := by
  split at h
  · rename_i p hb
    exact ⟨p, hb, h⟩
  · cases h

end GroundPlanner
