import GroundPlanner.Ascending
import GroundPlanner.State
import GroundPlanner.Text.Basic
/-!
# Conditions and effects

A condition asks for facts that hold and for facts that do not; its lists are ascending, so each literal
stands once (`Condition.of`).  An effect deletes facts and then adds facts, in the order of its lists.
-/
namespace GroundPlanner

/-- Numbers of facts, separated by commas. -/
def listFacts (fs : List FactId) : String :=
  Text.join ", " (fs.map Text.ofNat)

structure Condition where
  positive : List FactId
  negative : List FactId
deriving DecidableEq, Repr

namespace Condition

/-- The condition of these literals, in any order and with repetitions. -/
def of (positive negative : List FactId) : Condition :=
  ⟨ascending positive, ascending negative⟩

/-- The condition that asks for nothing. -/
def trivial : Condition :=
  ⟨[], []⟩

def isTrivial (c : Condition) : Bool :=
  c.positive.isEmpty && c.negative.isEmpty

/-- The two lists with their names. -/
def describe (c : Condition) : String :=
  "Condition \x7b positive: [" ++ listFacts c.positive ++ "], negative: [" ++ listFacts c.negative ++ "] \x7d"

end Condition

structure Effect where
  add : List FactId
  delete : List FactId
deriving DecidableEq, Repr

def Effect.isEmpty (e : Effect) : Bool :=
  e.add.isEmpty && e.delete.isEmpty

namespace State

/-- The facts that hold, between braces. -/
def describe (s : State) : String :=
  "\x7b" ++ listFacts s.toList ++ "\x7d"

def satisfies (s : State) (c : Condition) : Bool :=
  c.positive.all s.contains && c.negative.all (fun f => !s.contains f)

/-- Deletes first, so a fact in both lists holds afterwards. -/
def apply (s : State) (e : Effect) : State :=
  (s.removeAll e.delete).insertAll e.add

theorem satisfies_iff {s : State} {c : Condition} :
    s.satisfies c = true ↔
      (∀ f ∈ c.positive, s.contains f = true) ∧ ∀ f ∈ c.negative, s.contains f = false := by
  simp [satisfies]

theorem words_insertAll (s : State) (fs : List FactId) : (s.insertAll fs).words = s.words := by
  induction fs generalizing s with
  | nil => rfl
  | cons f fs ih => rw [insertAll, List.foldl_cons, ← insertAll, ih, words_insert]

theorem words_removeAll (s : State) (fs : List FactId) : (s.removeAll fs).words = s.words := by
  induction fs generalizing s with
  | nil => rfl
  | cons f fs ih => rw [removeAll, List.foldl_cons, ← removeAll, ih, words_remove]

theorem words_apply (s : State) (e : Effect) : (s.apply e).words = s.words := by
  rw [apply, words_insertAll, words_removeAll]

theorem words_foldl_apply (s : State) (es : List Effect) : (es.foldl apply s).words = s.words := by
  induction es generalizing s with
  | nil => rfl
  | cons e es ih => rw [List.foldl_cons, ih, words_apply]

theorem contains_insertAll (s : State) (fs : List FactId) (g : FactId) :
    (s.insertAll fs).contains g = (s.contains g || (decide (g ∈ fs) && decide (g < s.capacity))) := by
  induction fs generalizing s with
  | nil => simp [insertAll]
  | cons f fs ih =>
    rw [insertAll, List.foldl_cons, ← insertAll, ih, contains_insert]
    have hc : (s.insert f).capacity = s.capacity := by rw [capacity, words_insert, capacity]
    rw [hc]
    by_cases hfg : f = g
    · subst hfg
      by_cases hlt : f < s.capacity <;> simp [hlt]
    · simp [hfg, List.mem_cons, Ne.symm hfg]

theorem contains_removeAll (s : State) (fs : List FactId) (g : FactId) :
    (s.removeAll fs).contains g = (s.contains g && !decide (g ∈ fs)) := by
  induction fs generalizing s with
  | nil => simp [removeAll]
  | cons f fs ih =>
    rw [removeAll, List.foldl_cons, ← removeAll, ih, contains_remove]
    by_cases hfg : f = g
    · subst hfg; simp
    · simp [hfg, Ne.symm hfg]

/-- Of a fact that an effect both deletes and adds, the adding counts. -/
theorem contains_apply_of_lt {s : State} {e : Effect} (h : ∀ f ∈ e.add, f < s.capacity) (g : FactId) :
    (s.apply e).contains g = (s.contains g && !decide (g ∈ e.delete) || decide (g ∈ e.add)) := by
  rw [apply, contains_insertAll, contains_removeAll, capacity, words_removeAll, ← capacity]
  by_cases hg : g ∈ e.add
  · rw [decide_eq_true (h g hg), Bool.and_true]
  · rw [decide_eq_false hg, Bool.false_and]

end State
end GroundPlanner
