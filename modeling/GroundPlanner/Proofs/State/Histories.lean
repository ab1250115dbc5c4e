import GroundPlanner.Proofs.State.Words
import Mathlib.Data.Finset.Card
/-!
# States as finite sets

A state starts as a list of facts and is changed any number of times.  Whatever its history, it shows the finite set
that went through the same changes and nothing else (`state_refines`): the words it is kept in do not tell apart two
histories that lead to the same facts.
-/
namespace GroundPlanner
namespace State

/-! ## Changes -/

inductive Change where
  | insert (f : FactId)
  | remove (f : FactId)
  | apply (e : Effect)

namespace Change

/-- The facts that a change makes true are below a bound. -/
def Fits (bound : Nat) : Change → Prop
  | insert f => f < bound
  | remove _ => True
  | apply e => ∀ f ∈ e.add, f < bound

instance (bound : Nat) (c : Change) : Decidable (c.Fits bound) :=
  match c with
  | insert f => inferInstanceAs (Decidable (f < bound))
  | remove _ => inferInstanceAs (Decidable True)
  | apply e => inferInstanceAs (Decidable (∀ f ∈ e.add, f < bound))

def onState (s : State) : Change → State
  | insert f => s.insert f
  | remove f => s.remove f
  | apply e => s.apply e

def onRow (r : Row) : Change → Row
  | insert f => r.insert f
  | remove f => r.remove f
  | apply e => r.apply e

def onSet (F : Finset FactId) : Change → Finset FactId
  | insert f => F ∪ {f}
  | remove f => F \ {f}
  | apply e => F \ e.delete.toFinset ∪ e.add.toFinset

theorem words_onState (s : State) (c : Change) : (onState s c).words = s.words := by
  cases c with
  | insert f => exact State.words_insert s f
  | remove f => exact State.words_remove s f
  | apply e => exact State.words_apply s e

theorem row_onState (s : State) (c : Change) : (onState s c).row = onRow s.row c := by
  cases c with
  | insert f => exact State.row_insert s f
  | remove f => exact State.row_remove s f
  | apply e => exact State.row_apply s e

end Change

/-- A state holds the facts of a set and no others. -/
def Holds (s : State) (F : Finset FactId) : Prop :=
  ∀ f, s.contains f = decide (f ∈ F)

theorem Holds.change {s : State} {F : Finset FactId} {c : Change} (hs : s.Holds F) (hc : c.Fits s.capacity) :
    (c.onState s).Holds (c.onSet F) := by
  intro g
  cases c with
  | insert f =>
    have hlt : f < s.capacity := hc
    rw [Change.onState, contains_insert, hs g]
    simp [Change.onSet, hlt, eq_comm, Bool.or_comm]
  | remove f =>
    rw [Change.onState, contains_remove, hs g]
    simp [Change.onSet, eq_comm]
  | apply e =>
    rw [Change.onState, contains_apply_of_lt hc, hs g]
    simp [Change.onSet]

theorem holds_ofFacts {n : Nat} {fs : List FactId} (h : ∀ f ∈ fs, f < 64 * wordsFor n) :
    (ofFacts n fs).Holds fs.toFinset := by
  intro g
  rw [ofFacts, contains_insertAll, contains_empty, Bool.false_or]
  by_cases hg : g ∈ fs
  · have hlt : g < (empty n).capacity := h g hg
    simp [hg, hlt]
  · simp [hg]

/-! ## What is shown -/

/-- **The answers of a set of facts**: what a store of facts says of membership, its size, its emptiness and its list
is what the finite set says. -/
structure Shows (F : Finset FactId) (contains : FactId → Bool) (size : Nat) (isEmpty : Bool) (toList : List FactId) :
    Prop where
  contains : ∀ f, contains f = true ↔ f ∈ F
  size : size = F.card
  isEmpty : isEmpty = true ↔ F = ∅
  mem_toList : ∀ f, f ∈ toList ↔ f ∈ F
  increasing : toList.Pairwise (· < ·)

theorem Holds.shows {s : State} {F : Finset FactId} (h : s.Holds F) :
    Shows F s.contains s.size s.isEmpty s.toList where
  contains f := by rw [h f, decide_eq_true_eq]
  size := by
    have hnodup : s.toList.Nodup := s.sortedLT_toList.imp (fun h => Nat.ne_of_lt h)
    have hset : s.toList.toFinset = F := by
      ext f
      rw [List.mem_toFinset, mem_toList, h f, decide_eq_true_eq]
    rw [size, ← hset, List.toFinset_card_of_nodup hnodup]
  isEmpty := by
    rw [isEmpty_iff, Finset.eq_empty_iff_forall_notMem]
    simp only [h _, decide_eq_false_iff_not]
  mem_toList f := by rw [State.mem_toList, h f, decide_eq_true_eq]
  increasing := s.sortedLT_toList

theorem Holds.row_shows {s : State} {F : Finset FactId} (h : s.Holds F) :
    Shows F s.row.contains s.row.size s.row.isEmpty s.row.toList := by
  rw [funext s.contains_row, size_row, isEmpty_row, toList_row]
  exact h.shows

theorem ofFacts_toList {s : State} {n : Nat} (h : wordsFor n = s.words) : ofFacts n s.toList = s := by
  have hcap : (empty n).capacity = s.capacity := congrArg (64 * ·) h
  refine ext_contains ((words_insertAll _ _).trans h) (fun f => ?_)
  rw [ofFacts, contains_insertAll, contains_empty, Bool.false_or, hcap]
  cases hf : s.contains f with
  | false => simp [mem_toList, hf]
  | true => simp [mem_toList, hf, lt_capacity_of_contains hf]

theorem eq_iff_contains {s t : State} (h : s.words = t.words) : s = t ↔ ∀ f, s.contains f = t.contains f := by
  refine ⟨?_, ext_contains h⟩
  rintro rfl _
  rfl

/-! ## Histories -/

/-- How a state came about: the facts it was made from, with room for `width`, and the changes since. -/
structure History where
  width : Nat
  start : List FactId
  changes : List Change

namespace History

def words (h : History) : Nat :=
  State.wordsFor h.width

def state (h : History) : State :=
  h.changes.foldl Change.onState (.ofFacts h.width h.start)

def row (h : History) : Row :=
  h.changes.foldl Change.onRow (.ofFacts h.width h.start)

def facts (h : History) : Finset FactId :=
  h.changes.foldl Change.onSet h.start.toFinset

/-- The facts made true all have a place in the words of the state. -/
def Fits (h : History) : Prop :=
  (∀ f ∈ h.start, f < 64 * h.words) ∧ ∀ c ∈ h.changes, c.Fits (64 * h.words)

theorem words_foldl (s : State) (cs : List Change) : (cs.foldl Change.onState s).words = s.words := by
  induction cs generalizing s with
  | nil => rfl
  | cons c cs ih => rw [List.foldl_cons, ih, Change.words_onState]

theorem holds_foldl {s : State} {F : Finset FactId} {cs : List Change} (hs : s.Holds F)
    (hcs : ∀ c ∈ cs, c.Fits s.capacity) : (cs.foldl Change.onState s).Holds (cs.foldl Change.onSet F) := by
  induction cs generalizing s F with
  | nil => exact hs
  | cons c cs ih =>
    have hcap : (c.onState s).capacity = s.capacity := congrArg (64 * ·) (Change.words_onState s c)
    apply ih (hs.change (hcs c List.mem_cons_self))
    intro d hd
    rw [hcap]
    exact hcs d (List.mem_cons_of_mem _ hd)

theorem words_state (h : History) : h.state.words = h.words := by
  rw [state, words_foldl]
  exact State.words_insertAll _ _

theorem row_state (h : History) : h.state.row = h.row := by
  rw [state, row, ← State.row_ofFacts]
  exact (List.foldl_hom State.row (fun s c => (Change.row_onState s c).symm)).symm

theorem holds_state {h : History} (fits : h.Fits) : h.state.Holds h.facts := by
  apply holds_foldl (State.holds_ofFacts fits.1)
  intro c hc
  rw [State.capacity, State.ofFacts, State.words_insertAll]
  exact fits.2 c hc

/-- **A state, and the row of words it is kept in, refine the finite set of a history.** -/
structure Refines (h : History) : Prop where
  row_state : h.state.row = h.row
  state_shows : Shows h.facts h.state.contains h.state.size h.state.isEmpty h.state.toList
  row_shows : Shows h.facts h.row.contains h.row.size h.row.isEmpty h.row.toList
  beyond : ∀ f, 64 * h.words ≤ f → h.state.contains f = false ∧ h.row.contains f = false
  restored : ∀ n, State.wordsFor n = h.words →
    State.ofFacts n h.state.toList = h.state ∧ Row.ofFacts n h.row.toList = h.row
  canonical : ∀ h' : History, h'.words = h.words →
    (h.state = h'.state ↔ ∀ f, h.state.contains f = h'.state.contains f) ∧
      (h.row = h'.row ↔ ∀ f, h.row.contains f = h'.row.contains f)

/-- **A state refines a finite set of facts**: whatever facts it starts from and however it is changed after, it
contains, counts and lists the facts of the set that went through the same changes; its list gives it back; and of the
histories in as many words it is equal to those, and only those, that lead to the same facts. -/
theorem state_refines (h : History) (fits : h.Fits) : h.Refines where
  row_state := h.row_state
  state_shows := (holds_state fits).shows
  row_shows := h.row_state ▸ (holds_state fits).row_shows
  beyond f hf := by
    have hlen : 64 * h.row.length ≤ f := by rwa [← h.row_state, State.length_row, words_state]
    have hfalse := Row.contains_beyond hlen
    refine ⟨?_, hfalse⟩
    rw [← State.contains_row, h.row_state, hfalse]
  restored n hn := by
    have hstate : State.ofFacts n h.state.toList = h.state := State.ofFacts_toList (hn.trans h.words_state.symm)
    refine ⟨hstate, ?_⟩
    rw [← h.row_state, State.toList_row, ← State.row_ofFacts, hstate]
  canonical h' hw := by
    have hwords : h.state.words = h'.state.words := by rw [words_state, words_state, hw]
    have hiff := State.eq_iff_contains hwords
    refine ⟨hiff, ?_⟩
    rw [← h.row_state, ← h'.row_state, State.row_injective.eq_iff, hiff]
    simp only [State.contains_row]

/-- Facts on both sides of the ends of words, one of them in the last word past the width. -/
def spread : History where
  width := 130
  start := [0, 64]
  changes := [.insert 129, .insert 63, .remove 64, .insert 191, .apply ⟨[65, 63], [0, 63]⟩]

theorem state_refines_spread :
    spread.Fits ∧ spread.Refines ∧ spread.facts = {63, 65, 129, 191} ∧ spread.state.toList = [63, 65, 129, 191] := by
  have hfits : spread.Fits := by
    refine ⟨by decide, ?_⟩
    decide
  exact ⟨hfits, state_refines spread hfits, by decide, by decide +kernel⟩

end History

end State
end GroundPlanner
