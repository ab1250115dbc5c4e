import GroundPlanner.Proofs.Draft
import Mathlib.Data.List.Nodup
/-!
# The faults of a draft

`Draft.faults` lists what is wrong with a draft in the order of reading: names that the fact table lacks, and actions
that have the name of an earlier one.  Building stops at the first fault (`Draft.faultOf_build`), so it succeeds when
every name is declared and no two actions share a name (`Draft.faults_eq_nil_iff`).
-/
namespace GroundPlanner

variable {ε α β : Type} {table prior : List String} {context : FactContext}

/-! ## Stopping at the first fault -/

def faultOf : Except ε α → Option ε
  | .ok _ => none
  | .error e => some e

theorem faultOf_eq_none_iff {x : Except ε α} : faultOf x = none ↔ ∃ a, x = .ok a := by
  cases x <;> simp [faultOf]

theorem faultOf_eq_some_iff {x : Except ε α} {e : ε} : faultOf x = some e ↔ x = .error e := by
  cases x <;> simp [faultOf]

theorem faultOf_bind {x : Except ε α} {f : α → Except ε β} {rest : Option ε}
    (h : ∀ a, x = .ok a → faultOf (f a) = rest) : faultOf (x >>= f) = (faultOf x).or rest := by
  cases x with
  | error e => rfl
  | ok a => exact h a rfl

/-! ## What is wrong with a draft -/

/-- The names that the table lacks. -/
def undeclared (table : List String) (context : FactContext) (names : List String) : List ModelFault :=
  (names.filter (· ∉ table)).map (.unknownFact · context)

/-- The action at index `i`, if one of the actions before it has its name. -/
def repeated (prior : List String) (name : String) (i : Nat) : List ModelFault :=
  match prior.idxOf? name with
  | some j => [.duplicateAction name j i]
  | none => []

def ActionDraft.faults (table names : List String) (a : ActionDraft) (i : Nat) : List ModelFault :=
  repeated (names.take i) a.name i ++ undeclared table (.action a.name) a.mentioned

/-- **What is wrong with a draft**: first in the initial state, then in the goal and then action by action, in each of
them a repeated name before the facts. -/
def Draft.faults (d : Draft) : List ModelFault :=
  undeclared d.table .init d.init ++ undeclared d.table .goal (d.goal ++ d.goalNeg) ++
    d.actions.zipIdx.flatMap (fun (a, i) => a.faults d.table (d.actions.map ActionDraft.name) i)

theorem undeclared_append (table : List String) (context : FactContext) (xs ys : List String) :
    undeclared table context (xs ++ ys) = undeclared table context xs ++ undeclared table context ys := by
  simp only [undeclared, List.filter_append, List.map_append]

theorem undeclared_eq_nil_iff {names : List String} : undeclared table context names = [] ↔ ∀ n ∈ names, n ∈ table := by
  simp [undeclared]

theorem repeated_eq_nil_iff {name : String} {i : Nat} : repeated prior name i = [] ↔ name ∉ prior := by
  rw [← List.idxOf?_eq_none_iff, repeated]
  cases prior.idxOf? name <;> simp

/-! ## Building stops at the first fault -/

theorem faultOf_resolve (table : List String) (context : FactContext) (names : List String) :
    faultOf (resolve table context names) = (undeclared table context names).head? := by
  induction names with
  | nil => rfl
  | cons n names ih =>
    unfold resolve
    cases hn : table.idxOf? n with
    | none =>
      have hout : n ∉ table := List.idxOf?_eq_none_iff.1 hn
      simp [undeclared, hout, faultOf]
    | some f =>
      have hin : n ∈ table := List.isSome_idxOf?.1 (Option.isSome_of_eq_some hn)
      refine Eq.trans (faultOf_bind fun _ _ => rfl) ?_
      rw [ih, undeclared, undeclared, List.filter_cons_of_neg (by simpa using hin)]
      exact Option.or_none

theorem EffectDraft.faultOf_build (table : List String) (context : FactContext) (e : EffectDraft) :
    faultOf (e.build table context) = (undeclared table context e.mentioned).head? := by
  refine Eq.trans (faultOf_bind fun _ _ => faultOf_bind fun _ _ => faultOf_bind fun _ _ => faultOf_bind fun _ _ =>
    rfl) ?_
  simp only [faultOf_resolve, mentioned, undeclared_append, List.head?_append, Option.or_assoc, Option.or_none]

theorem EffectDraft.faultOf_buildAll (table : List String) (context : FactContext) (es : List EffectDraft) :
    faultOf (buildAll table context es) = (undeclared table context (es.flatMap mentioned)).head? := by
  induction es with
  | nil => rfl
  | cons e es ih =>
    refine Eq.trans (faultOf_bind fun _ _ => faultOf_bind fun _ _ => rfl) ?_
    simp only [faultOf_build, ih, List.flatMap_cons, undeclared_append, List.head?_append, Option.or_none]

theorem ActionDraft.faultOf_build (table : List String) (a : ActionDraft) :
    faultOf (a.build table) = (undeclared table (.action a.name) a.mentioned).head? := by
  refine Eq.trans (faultOf_bind fun _ _ => faultOf_bind fun _ _ => faultOf_bind fun _ _ => faultOf_bind fun _ _ =>
    faultOf_bind fun _ _ => rfl) ?_
  simp only [faultOf_resolve, EffectDraft.faultOf_buildAll, mentioned, undeclared_append, List.head?_append,
    Option.or_assoc, Option.or_none]

theorem ActionDraft.faultOf_buildAll {names : List String} {as : List ActionDraft}
    (h : names = prior ++ as.map ActionDraft.name) : faultOf (buildAll table prior as) =
      ((as.zipIdx prior.length).flatMap (fun (a, i) => a.faults table names i)).head? := by
  induction as generalizing prior with
  | nil => rfl
  | cons a as ih =>
    have hfirst : a.faults table names prior.length =
        repeated prior a.name prior.length ++ undeclared table (.action a.name) a.mentioned := by
      rw [faults, h, List.take_left]
    rw [buildAll, List.zipIdx_cons, List.flatMap_cons]
    dsimp only
    rw [hfirst, List.head?_append, List.head?_append, repeated]
    cases prior.idxOf? a.name with
    | some j => rfl
    | none =>
      have hnext : names = prior ++ [a.name] ++ as.map ActionDraft.name := by rw [h]; simp
      refine Eq.trans (faultOf_bind fun _ _ => faultOf_bind fun _ _ => rfl) ?_
      rw [faultOf_build, ih hnext, List.length_append, List.length_singleton, Option.or_none, List.head?_nil,
        Option.none_or]

/-- **Building stops at the first fault.** -/
theorem Draft.faultOf_build (d : Draft) : faultOf d.build = d.faults.head? := by
  refine Eq.trans (faultOf_bind fun _ _ => faultOf_bind fun _ _ => faultOf_bind fun _ _ => faultOf_bind fun _ _ =>
    rfl) ?_
  rw [ActionDraft.faultOf_buildAll (List.nil_append _).symm]
  simp only [faultOf_resolve, faults, undeclared_append, List.head?_append, Option.or_assoc, Option.or_none,
    List.length_nil]

/-! ## Drafts without faults -/

/-- In a list without repetitions nothing stands among what is before it. -/
theorem nodup_iff_not_mem_take {xs : List α} : xs.Nodup ↔ ∀ i x, xs[i]? = some x → x ∉ xs.take i := by
  rw [List.nodup_iff_getElem?_ne_getElem?]
  constructor
  · intro h i x hx hmem
    obtain ⟨j, hj, hjx⟩ := List.mem_take_iff_getElem.1 hmem
    have hi := (List.getElem?_eq_some_iff.1 hx).1
    refine h j i (by omega) hi ?_
    rw [hx, List.getElem?_eq_getElem (by omega), hjx]
  · intro h j i hji hi heq
    refine h i xs[i] (List.getElem?_eq_getElem hi) ?_
    rw [List.getElem?_eq_getElem hi, List.getElem?_eq_some_iff] at heq
    obtain ⟨hj, hjx⟩ := heq
    exact List.mem_take_iff_getElem.2 ⟨j, by omega, hjx⟩

/-- **A draft is without faults if its names are declared and its actions differ in name.** -/
theorem Draft.faults_eq_nil_iff {d : Draft} : d.faults = [] ↔
    (∀ n ∈ d.mentions, n ∈ d.table) ∧ (d.actions.map ActionDraft.name).Nodup := by
  rw [nodup_iff_not_mem_take]
  simp only [faults, ActionDraft.faults, List.append_eq_nil_iff, undeclared_eq_nil_iff, List.flatMap_eq_nil_iff,
    repeated_eq_nil_iff, Prod.forall, List.mem_zipIdx_iff_getElem?, mentions, List.mem_append, List.mem_flatMap,
    List.getElem?_map, Option.map_eq_some_iff, forall_exists_index, and_imp]
  constructor
  · rintro ⟨⟨hinit, hgoal⟩, hactions⟩
    refine ⟨?_, fun i n a ha hn => hn ▸ (hactions a i ha).1⟩
    rintro n (((hn | hn) | hn) | ⟨a, ha, hn⟩)
    · exact hinit n hn
    · exact hgoal n (.inl hn)
    · exact hgoal n (.inr hn)
    · obtain ⟨i, hi⟩ := List.mem_iff_getElem?.1 ha
      exact (hactions a i hi).2 n hn
  · rintro ⟨hnames, hdistinct⟩
    refine ⟨⟨fun n hn => hnames n (.inl (.inl (.inl hn))), fun n hn => hnames n ?_⟩, fun a i ha => ⟨?_, fun n hn => ?_⟩⟩
    · exact hn.elim (fun h => .inl (.inl (.inr h))) (fun h => .inl (.inr h))
    · exact hdistinct i a.name a ha rfl
    · exact hnames n (.inr ⟨a, List.mem_of_getElem? ha, hn⟩)

end GroundPlanner
