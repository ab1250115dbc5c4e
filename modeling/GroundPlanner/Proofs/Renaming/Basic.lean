import GroundPlanner.Proofs.Bisimilar
import GroundPlanner.Proofs.Draft
import Mathlib.Data.List.Sort
import Mathlib.Logic.Equiv.Defs
/-!
# Problems with other numbers for their facts

A renaming gives every fact another number.  Conditions keep their lists ascending, so the literals of a renamed
condition stand in another order (`Condition.rename`).  The states of a renamed problem correspond to those of the
problem (`Problem.Mirrors`), and the two problems are bisimilar (`Problem.Renamed.bisimilar`).
-/
namespace GroundPlanner

variable {σ : Equiv.Perm FactId}

/-! ## Ascending lists -/

/-- An ascending list is fixed by its members. -/
theorem ascending_congr {l l' : List Nat} (h : ∀ x, x ∈ l ↔ x ∈ l') : ascending l = ascending l' := by
  refine (pairwise_ascending l).eq_of_mem_iff (pairwise_ascending l') (fun x => ?_)
  rw [mem_ascending, mem_ascending, h]

theorem nodup_ascending (l : List Nat) : (ascending l).Nodup :=
  (pairwise_ascending l).imp Nat.ne_of_lt

/-- Ascending lists of renamed facts are those of their renamed ascending lists. -/
theorem ascending_map_ascending (f : Nat → Nat) (l : List Nat) :
    ascending ((ascending l).map f) = ascending (l.map f) :=
  ascending_congr (fun x => by simp only [List.mem_map, mem_ascending])

theorem mem_ascending_map {l : List FactId} {g : FactId} : g ∈ ascending (l.map σ) ↔ ∃ f ∈ l, σ f = g := by
  rw [mem_ascending, List.mem_map]

theorem apply_mem_ascending_map {l : List FactId} {f : FactId} (h : f ∈ l) : σ f ∈ ascending (l.map σ) :=
  mem_ascending_map.2 ⟨f, h, rfl⟩

/-! ## Renaming -/

def Condition.rename (σ : Equiv.Perm FactId) (c : Condition) : Condition :=
  .of (c.positive.map σ) (c.negative.map σ)

def Effect.rename (σ : Equiv.Perm FactId) (e : Effect) : Effect :=
  ⟨e.add.map σ, e.delete.map σ⟩

def GuardedEffect.rename (σ : Equiv.Perm FactId) (e : GuardedEffect) : GuardedEffect :=
  ⟨e.guard.rename σ, e.effect.rename σ⟩

def Action.rename (σ : Equiv.Perm FactId) (a : Action) : Action :=
  ⟨a.name, a.precondition.rename σ, a.effects.map (GuardedEffect.rename σ)⟩

theorem Condition.rename_of (positive negative : List FactId) :
    (Condition.of positive negative).rename σ = .of (positive.map σ) (negative.map σ) := by
  simp only [rename, of, ascending_map_ascending]

/-- **Two problems that differ in the numbers of their facts.** -/
structure Problem.Renamed (σ : Equiv.Perm FactId) (p q : Problem) : Prop where
  inTable : p.InTable
  inTable' : q.InTable
  init : ∀ f, q.init.contains (σ f) = p.init.contains f
  goal_nodup : p.goal.positive.Nodup
  goal_eq : q.goal = p.goal.rename σ
  actions_eq : q.actions = p.actions.map (Action.rename σ)
  requirements_eq : q.requirements = p.requirements

/-- **States of two problems in which the same facts hold**, by their numbers in each. -/
structure Problem.Mirrors (σ : Equiv.Perm FactId) (p q : Problem) (s t : State) : Prop where
  words_eq : s.words = p.init.words
  words_eq' : t.words = q.init.words
  lt : ∀ f, s.contains f = true → f < p.numFacts
  lt' : ∀ f, t.contains f = true → f < q.numFacts
  contains_eq : ∀ f, t.contains (σ f) = s.contains f

/-! ## States -/

theorem Problem.InTable.numFacts_le {p : Problem} (hp : p.InTable) : p.numFacts ≤ p.init.capacity := by
  rw [State.capacity, hp.width]
  exact State.le_capacity_empty p.numFacts

theorem State.lt_of_contains_apply {n : Nat} {s : State} {e : Effect} (hn : n ≤ s.capacity) (he : e.Below n)
    (hs : ∀ f, s.contains f = true → f < n) {f : FactId} (hf : (s.apply e).contains f = true) : f < n := by
  rw [contains_apply hn he, Bool.or_eq_true, Bool.and_eq_true, decide_eq_true_iff] at hf
  exact hf.elim (fun h => hs f h.1) (he.1 f)

namespace Problem

variable {p q : Problem} {s t s' t' : State}

namespace Mirrors

theorem satisfies_rename (h : p.Mirrors σ q s t) (c : Condition) : t.satisfies (c.rename σ) = s.satisfies c := by
  rw [Bool.eq_iff_iff, State.satisfies_iff, State.satisfies_iff]
  simp only [Condition.rename, Condition.of, mem_ascending, List.forall_mem_map, h.contains_eq]

theorem eq_iff (h : p.Mirrors σ q s t) (h' : p.Mirrors σ q s' t') : t' = t ↔ s' = s := by
  constructor
  · rintro rfl
    exact State.ext_contains (h'.words_eq.trans h.words_eq.symm)
      (fun f => (h'.contains_eq f).symm.trans (h.contains_eq f))
  · rintro rfl
    refine State.ext_contains (h'.words_eq'.trans h.words_eq'.symm) (fun f => ?_)
    obtain ⟨g, rfl⟩ := σ.surjective f
    exact (h'.contains_eq g).trans (h.contains_eq g).symm

theorem apply_rename (h : p.Mirrors σ q s t) (hr : p.Renamed σ q) {e : Effect} (he : e.Below p.numFacts)
    (he' : (e.rename σ).Below q.numFacts) : p.Mirrors σ q (s.apply e) (t.apply (e.rename σ)) := by
  have hs : p.numFacts ≤ s.capacity := by
    rw [State.capacity, h.words_eq]
    exact hr.inTable.numFacts_le
  have ht : q.numFacts ≤ t.capacity := by
    rw [State.capacity, h.words_eq']
    exact hr.inTable'.numFacts_le
  refine ⟨(State.words_apply s e).trans h.words_eq, (State.words_apply t _).trans h.words_eq',
    fun f => State.lt_of_contains_apply hs he h.lt, fun f => State.lt_of_contains_apply ht he' h.lt', fun f => ?_⟩
  rw [State.contains_apply hs he, State.contains_apply ht he', h.contains_eq]
  simp only [Effect.rename, List.mem_map_of_injective σ.injective]

theorem fired_rename (h : p.Mirrors σ q s t) (a : Action) :
    (a.rename σ).fired t = (a.fired s).map (Effect.rename σ) := by
  unfold Action.fired Action.rename
  rw [List.filter_map, List.map_map, List.map_map]
  have hguard : ((fun e => t.satisfies e.guard) ∘ GuardedEffect.rename σ) = fun e => s.satisfies e.guard :=
    funext (fun e => h.satisfies_rename e.guard)
  rw [hguard]
  rfl

theorem successor_rename (h : p.Mirrors σ q s t) (hr : p.Renamed σ q) {a : Action} (ha : a ∈ p.actions) :
    p.Mirrors σ q (a.successor s) ((a.rename σ).successor t) := by
  have hbelow := (hr.inTable.actions a ha).2
  have hbelow' := (hr.inTable'.actions _ (hr.actions_eq ▸ List.mem_map_of_mem ha)).2
  have hfired : ∀ e ∈ a.fired s, e.Below p.numFacts ∧ (e.rename σ).Below q.numFacts := by
    intro e he
    obtain ⟨g, hg, rfl⟩ := List.mem_map.1 he
    have hg := (List.mem_filter.1 hg).1
    exact ⟨(hbelow g hg).2, (hbelow' _ (List.mem_map_of_mem hg)).2⟩
  unfold Action.successor
  rw [h.fired_rename, List.foldl_map]
  generalize a.fired s = es at hfired
  induction es generalizing s t with
  | nil => exact h
  | cons e es ih =>
    obtain ⟨he, he'⟩ := hfired e List.mem_cons_self
    exact ih (h.apply_rename hr he he') (fun e' he' => hfired e' (List.mem_cons_of_mem e he'))

theorem options_rename (h : p.Mirrors σ q s t) (hr : p.Renamed σ q) :
    q.options t = (p.options s).map (fun x => (x.1, x.2.rename σ)) := by
  unfold options
  rw [hr.actions_eq, List.zipIdx_map, List.filterMap_map, List.map_filterMap]
  refine List.filterMap_congr (fun x _ => ?_)
  have happ : (x.1.rename σ).applicable t = x.1.applicable s := h.satisfies_rename x.1.precondition
  simp only [Function.comp_apply, Prod.map, happ]
  split <;> rfl

end Mirrors

namespace Renamed

theorem mirrors_init (hr : p.Renamed σ q) : p.Mirrors σ q p.init q.init :=
  ⟨rfl, rfl, hr.inTable.init, hr.inTable'.init, hr.init⟩

/-- **The searches do not tell renamed problems apart.** -/
theorem bisimilar (hr : p.Renamed σ q) : p.Bisimilar (p.Mirrors σ q) q where
  requirements_eq := hr.requirements_eq
  init := hr.mirrors_init
  eq_iff h h' := h.eq_iff h'
  isGoal_eq h := by
    unfold isGoal
    rw [hr.goal_eq, h.satisfies_rename]
  options h := by
    rw [h.options_rename hr, List.forall₂_map_right_iff, List.forall₂_same]
    rintro ⟨i, a⟩ hx
    exact ⟨rfl, h.successor_rename hr (List.mem_of_getElem? (mem_options.1 hx).1)⟩

end Renamed
end Problem
end GroundPlanner
