import GroundPlanner.Proofs.Naming
import GroundPlanner.Proofs.Renaming.Basic
import Mathlib.SetTheory.Cardinal.Arithmetic
/-!
# Drafts with another fact table

A draft that builds also builds with any other table in which all names that it mentions stand, and the two problems
differ in the numbers of their facts only (`Draft.build_renamed`).
-/
namespace GroundPlanner

variable {σ : Equiv.Perm FactId} {table table' prior : List String} {context : FactContext}

/-- **The second table has the names of a list at the renamed places** of the first. -/
def Renumbers (σ : Equiv.Perm FactId) (table table' names : List String) : Prop :=
  ∀ n ∈ names, ∀ f, table.idxOf? n = some f → table'.idxOf? n = some (σ f)

theorem renumbers_append {names names' : List String} : Renumbers σ table table' (names ++ names') ↔
    Renumbers σ table table' names ∧ Renumbers σ table table' names' :=
  List.forall_mem_append

theorem renumbers_cons {n : String} {names : List String} : Renumbers σ table table' (n :: names) ↔
    (∀ f, table.idxOf? n = some f → table'.idxOf? n = some (σ f)) ∧ Renumbers σ table table' names :=
  List.forall_mem_cons

/-! ## Fact tables -/

/-- **Two tables with the same names are renumberings of each other.** -/
theorem exists_renumbers (table : List String) {names : List String} (h : ∀ n ∈ names, n ∈ table') :
    ∃ σ, Renumbers σ table table' names := by
  let s : Set Nat := {f | ∃ n ∈ names, table.idxOf? n = some f}
  have hplace : ∀ {n : String} {f : Nat}, table.idxOf? n = some f → table.getD f "" = n := by
    intro n f hf
    obtain ⟨hlt, hget, -⟩ := List.idxOf?_eq_some_iff.1 hf
    rw [List.getD_eq_getElem?_getD, List.getElem?_eq_getElem hlt, hget, Option.getD_some]
  have hfin : Cardinal.mk s < Cardinal.mk Nat := by
    have hsub : s ⊆ {f | f < table.length} := by
      rintro f ⟨n, -, hf⟩
      exact (List.idxOf?_eq_some_iff.1 hf).1
    rw [Cardinal.mk_nat, Cardinal.lt_aleph0_iff_set_finite]
    exact (Set.finite_lt_nat _).subset hsub
  let place : s ↪ Nat := ⟨fun f => table'.idxOf (table.getD f ""), by
    rintro ⟨f, n, hn, hf⟩ ⟨g, m, hm, hg⟩ hfg
    simp only [hplace hf, hplace hg] at hfg
    obtain rfl := (List.idxOf_inj (h n hn)).1 hfg
    exact Subtype.ext (Option.some.inj (hf.symm.trans hg))⟩
  -- Only the named facts have a place to go to; the others go wherever there is room.
  obtain ⟨σ, hσ⟩ := Cardinal.extend_function_of_lt place hfin ⟨Equiv.refl _⟩
  refine ⟨σ, fun n hn f hf => ?_⟩
  have hf' : σ f = table'.idxOf n := (hσ ⟨f, n, hn, hf⟩).trans (congrArg (table'.idxOf ·) (hplace hf))
  obtain ⟨g, hg⟩ := Option.isSome_iff_exists.1 (List.isSome_idxOf?.2 (h n hn))
  rw [hf', List.idxOf_eq_getD_idxOf?, hg, Option.getD_some]

/-! ## Resolving -/

theorem resolve_rename {names : List String} {fs : List FactId} (h : Renumbers σ table table' names)
    (hr : resolve table context names = .ok fs) : resolve table' context names = .ok (fs.map σ) := by
  induction names generalizing fs with
  | nil =>
    cases hr
    rfl
  | cons n names ih =>
    obtain ⟨hn, hnames⟩ := renumbers_cons.1 h
    unfold resolve at hr ⊢
    split at hr
    · cases hr
    · rename_i f hf
      obtain ⟨fs', hfs, hr⟩ := bind_eq_ok.1 hr
      cases hr
      rw [hn f hf]
      exact bind_eq_ok.2 ⟨_, ih hnames hfs, rfl⟩

theorem Effect.isEmpty_rename (σ : Equiv.Perm FactId) (e : Effect) : (e.rename σ).isEmpty = e.isEmpty := by
  simp only [rename, isEmpty, List.isEmpty_map]

theorem EffectDraft.build_rename {e : EffectDraft} {g : GuardedEffect} (h : Renumbers σ table table' e.mentioned)
    (hb : e.build table context = .ok g) : e.build table' context = .ok (g.rename σ) := by
  simp only [mentioned, renumbers_append] at h
  obtain ⟨⟨⟨hpre, hpreNeg⟩, hadd⟩, hdel⟩ := h
  unfold build at hb ⊢
  obtain ⟨pre, hp, hb⟩ := bind_eq_ok.1 hb
  obtain ⟨preNeg, hn, hb⟩ := bind_eq_ok.1 hb
  obtain ⟨add, ha, hb⟩ := bind_eq_ok.1 hb
  obtain ⟨del, hd, hb⟩ := bind_eq_ok.1 hb
  cases hb
  rw [resolve_rename hpre hp, resolve_rename hpreNeg hn, resolve_rename hadd ha, resolve_rename hdel hd]
  simp only [GuardedEffect.rename, Condition.rename_of]
  rfl

theorem EffectDraft.buildAll_rename {es : List EffectDraft} {gs : List GuardedEffect}
    (h : Renumbers σ table table' (es.flatMap mentioned)) (hb : buildAll table context es = .ok gs) :
    buildAll table' context es = .ok (gs.map (GuardedEffect.rename σ)) := by
  induction es generalizing gs with
  | nil =>
    cases hb
    rfl
  | cons e es ih =>
    rw [List.flatMap_cons, renumbers_append] at h
    unfold buildAll at hb ⊢
    obtain ⟨g, hg, hb⟩ := bind_eq_ok.1 hb
    obtain ⟨gs', hgs, hb⟩ := bind_eq_ok.1 hb
    cases hb
    rw [build_rename h.1 hg, ih h.2 hgs]
    rfl

theorem ActionDraft.build_rename {a : ActionDraft} {b : Action} (h : Renumbers σ table table' a.mentioned)
    (hb : a.build table = .ok b) : a.build table' = .ok (b.rename σ) := by
  simp only [mentioned, renumbers_append] at h
  obtain ⟨⟨⟨⟨hpre, hpreNeg⟩, hadd⟩, hdel⟩, hwhen⟩ := h
  unfold build at hb ⊢
  obtain ⟨pre, hp, hb⟩ := bind_eq_ok.1 hb
  obtain ⟨preNeg, hn, hb⟩ := bind_eq_ok.1 hb
  obtain ⟨add, ha, hb⟩ := bind_eq_ok.1 hb
  obtain ⟨del, hd, hb⟩ := bind_eq_ok.1 hb
  obtain ⟨conditional, hc, hb⟩ := bind_eq_ok.1 hb
  cases hb
  simp only [resolve_rename hpre hp, resolve_rename hpreNeg hn, resolve_rename hadd ha, resolve_rename hdel hd,
    EffectDraft.buildAll_rename hwhen hc, Action.rename, Condition.rename_of]
  change Except.ok _ = Except.ok _
  rw [Except.ok.injEq, Action.mk.injEq]
  refine ⟨rfl, rfl, ?_⟩
  have hempty := Effect.isEmpty_rename σ ⟨add, del⟩
  simp only [Effect.rename] at hempty
  rw [hempty]
  split <;> rfl

theorem ActionDraft.buildAll_rename {as : List ActionDraft} {bs : List Action}
    (h : Renumbers σ table table' (as.flatMap mentioned)) (hb : buildAll table prior as = .ok bs) :
    buildAll table' prior as = .ok (bs.map (Action.rename σ)) := by
  induction as generalizing prior bs with
  | nil =>
    cases hb
    rfl
  | cons a as ih =>
    rw [List.flatMap_cons, renumbers_append] at h
    unfold buildAll at hb ⊢
    split at hb
    · cases hb
    · rename_i hnew
      obtain ⟨b, hb', hb⟩ := bind_eq_ok.1 hb
      obtain ⟨bs', hbs, hb⟩ := bind_eq_ok.1 hb
      cases hb
      rw [build_rename h.1 hb', ih h.2 hbs]
      rfl

/-! ## Building -/

/-- **A draft with another table builds the problem with other numbers for its facts.** -/
theorem Draft.build_renamed {d : Draft} {p : Problem} {names : List String} (hb : d.build = .ok p)
    (hn : ∀ n ∈ d.mentions, n ∈ names) :
    ∃ σ q, { d with facts := some names }.build = .ok q ∧ p.Renamed σ q := by
  have hdeclared : ∀ n ∈ d.mentions, n ∈ distinct names := fun n hm => mem_distinct.2 (hn n hm)
  obtain ⟨σ, hσ⟩ := exists_renumbers d.table hdeclared
  have hp := build_inTable hb
  simp only [mentions, renumbers_append] at hσ
  obtain ⟨⟨⟨hinit, hgoal⟩, hgoalNeg⟩, hactions⟩ := hσ
  unfold build at hb
  obtain ⟨init, hi, hb⟩ := bind_eq_ok.1 hb
  obtain ⟨goal, hg, hb⟩ := bind_eq_ok.1 hb
  obtain ⟨goalNeg, hgn, hb⟩ := bind_eq_ok.1 hb
  obtain ⟨actions, ha, hb⟩ := bind_eq_ok.1 hb
  cases hb
  have hinit' := resolve_rename hinit hi
  have hq : { d with facts := some names }.build = .ok
      { name := d.name
        facts := distinct names
        init := .ofFacts (distinct names).length (init.map σ)
        goal := .of (goal.map σ) (goalNeg.map σ)
        actions := actions.map (Action.rename σ)
        requirements := if d.requirements.isEmpty then [.strips] else d.requirements } := by
    simp only [build, table, hinit', resolve_rename hgoal hg, resolve_rename hgoalNeg hgn,
      ActionDraft.buildAll_rename hactions ha]
    rfl
  refine ⟨σ, _, hq, hp, build_inTable hq, fun f => ?_, nodup_ascending goal, (Condition.rename_of goal goalNeg).symm,
    rfl, rfl⟩
  rw [State.contains_ofFacts (resolve_lt hinit'), State.contains_ofFacts (resolve_lt hi)]
  simp only [List.mem_map_of_injective σ.injective]

end GroundPlanner
