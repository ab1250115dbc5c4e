import GroundPlanner.Proofs.Renaming.Basic
/-!
# Actions within the words of a state

A fact is made true in the word that stands for it.  Here this word is looked up: there is no result if it was not
allocated (`State.insert?`).  In a state of the problem's width the facts of the table all have their words, so every
action has a result, the one that it has without looking (`Action.successor?_eq`, `Problem.successors?_eq`).  The states
that actions lead to, applicable or not, are of that width and hold facts of the table only (`Problem.Fits.foldl`).
-/
namespace GroundPlanner

/-! ## Folds that may fail -/

/-- **A fold each step of which has a result has one**, and what relates the steps to those of another fold relates the
results. -/
theorem foldlM_related {α β γ : Type} {R : β → γ → Prop} {f : β → α → Option β} {g : γ → α → γ} {xs : List α}
    (hstep : ∀ b c, R b c → ∀ x ∈ xs, ∃ b', f b x = some b' ∧ R b' (g c x)) {b : β} {c : γ} (h : R b c) :
    ∃ b', xs.foldlM f b = some b' ∧ R b' (xs.foldl g c) := by
  induction xs generalizing b c with
  | nil => exact ⟨b, rfl, h⟩
  | cons x xs ih =>
    obtain ⟨b', hb', hx⟩ := hstep b c h x List.mem_cons_self
    obtain ⟨b'', hb'', hxs⟩ := ih (fun b c h y hy => hstep b c h y (List.mem_cons_of_mem x hy)) hx
    refine ⟨b'', ?_, hxs⟩
    rw [List.foldlM_cons, hb']
    exact hb''

/-- **A fold whose steps have their results has its result**, if they keep what the steps need. -/
theorem foldlM_eq_some {α β : Type} {P : β → Prop} {f : β → α → Option β} {g : β → α → β} {xs : List α}
    (hstep : ∀ b, P b → ∀ x ∈ xs, f b x = some (g b x) ∧ P (g b x)) {b : β} (h : P b) :
    xs.foldlM f b = some (xs.foldl g b) := by
  have hrelated : ∀ b c, b = c ∧ P c → ∀ x ∈ xs, ∃ b', f b x = some b' ∧ b' = g c x ∧ P (g c x) := by
    rintro b _ ⟨rfl, hb⟩ x hx
    exact ⟨_, (hstep b hb x hx).1, rfl, (hstep b hb x hx).2⟩
  obtain ⟨b', hb', rfl, -⟩ := foldlM_related (R := fun b c => b = c ∧ P c) hrelated ⟨rfl, h⟩
  exact hb'

theorem mapM_eq_some {α β : Type} {f : α → Option β} {g : α → β} {xs : List α} (h : ∀ x ∈ xs, f x = some (g x)) :
    xs.mapM f = some (xs.map g) := by
  induction xs with
  | nil => rfl
  | cons x xs ih =>
    rw [List.mapM_cons, h x List.mem_cons_self, ih fun y hy => h y (List.mem_cons_of_mem x hy)]
    rfl

/-! ## Making facts true -/

namespace State

/-- Makes a fact true whose word was allocated. -/
def insert? (s : State) (f : FactId) : Option State :=
  if f / 64 < s.words then some (s.insert f) else none

def insertAll? (s : State) (fs : List FactId) : Option State :=
  fs.foldlM insert? s

def ofFacts? (n : Nat) (fs : List FactId) : Option State :=
  (empty n).insertAll? fs

def applied? (s : State) (e : Effect) : Option State :=
  (s.removeAll e.delete).insertAll? e.add

variable {n : Nat} {s : State} {f : FactId} {fs : List FactId} {e : Effect}

theorem insert?_eq_some (h : f < s.capacity) : s.insert? f = some (s.insert f) :=
  if_pos ((Nat.div_lt_iff_lt_mul (by decide)).2 (Nat.mul_comm 64 s.words ▸ h))

example : (zero 1).insert? 64 = none := by decide

theorem insertAll?_eq_some (h : ∀ f ∈ fs, f < s.capacity) : s.insertAll? fs = some (s.insertAll fs) := by
  refine foldlM_eq_some (P := fun t => t.words = s.words) (fun t ht f hf => ⟨insert?_eq_some ?_, ?_⟩) rfl
  · rw [capacity, ht]
    exact h f hf
  · rw [words_insert, ht]

theorem ofFacts?_eq_some (h : ∀ f ∈ fs, f < n) : ofFacts? n fs = some (ofFacts n fs) :=
  insertAll?_eq_some fun f hf => Nat.lt_of_lt_of_le (h f hf) (le_capacity_empty n)

theorem applied?_eq_some (hn : n ≤ s.capacity) (he : e.Below n) : s.applied? e = some (s.apply e) := by
  refine insertAll?_eq_some fun f hf => ?_
  rw [capacity, words_removeAll]
  exact Nat.lt_of_lt_of_le (he.1 f hf) hn

end State

/-! ## Actions -/

def Action.successor? (a : Action) (s : State) : Option State :=
  (a.fired s).foldlM State.applied? s

theorem Action.below_of_mem_fired {n : Nat} {a : Action} {s : State} {e : Effect} (ha : a.Below n)
    (he : e ∈ a.fired s) : e.Below n := by
  obtain ⟨g, hg, rfl⟩ := List.mem_map.1 he
  exact (ha.2 g (List.mem_filter.1 hg).1).2

theorem Action.successor?_eq_some {n : Nat} {a : Action} {s : State} (hn : n ≤ s.capacity) (ha : a.Below n) :
    a.successor? s = some (a.successor s) := by
  refine foldlM_eq_some (P := fun t => t.words = s.words) (fun t ht e he => ⟨?_, ?_⟩) rfl
  · have hcapacity : n ≤ t.capacity := by rwa [State.capacity, ht]
    exact State.applied?_eq_some hcapacity (below_of_mem_fired ha he)
  · rw [State.words_apply, ht]

namespace Problem

/-- The applicable actions, each with the state that it leads to. -/
def successors? (p : Problem) (s : State) : Option (List (Nat × State)) :=
  (p.options s).mapM (fun (i, a) => (a.successor? s).map (i, ·))

/-- **A state of the problem's width that holds facts of its table only.** -/
structure Fits (p : Problem) (s : State) : Prop where
  words_eq : s.words = p.init.words
  lt : ∀ f, s.contains f = true → f < p.numFacts

variable {p : Problem} {s : State} {a : Action}

theorem InTable.numFacts_le_capacity (hp : p.InTable) (hs : s.words = p.init.words) : p.numFacts ≤ s.capacity := by
  rw [State.capacity, hs]
  exact hp.numFacts_le

theorem InTable.successor?_eq_some (hp : p.InTable) (hs : s.words = p.init.words) (ha : a ∈ p.actions) :
    a.successor? s = some (a.successor s) :=
  Action.successor?_eq_some (hp.numFacts_le_capacity hs) (hp.actions a ha)

theorem InTable.successors?_eq_some (hp : p.InTable) (hs : s.words = p.init.words) :
    p.successors? s = some (p.successors s) := by
  refine mapM_eq_some ?_
  rintro ⟨i, a⟩ hx
  have ha := List.mem_of_getElem? (mem_options.1 hx).1
  exact congrArg (Option.map (i, ·)) (hp.successor?_eq_some hs ha)

theorem InTable.fits_init (hp : p.InTable) : p.Fits p.init :=
  ⟨rfl, hp.init⟩

theorem Fits.successor (hs : p.Fits s) (hp : p.InTable) (ha : a ∈ p.actions) : p.Fits (a.successor s) := by
  refine List.foldlRecOn (motive := p.Fits) (a.fired s) _ hs fun t ht e he => ?_
  have hbelow := Action.below_of_mem_fired (hp.actions a ha) he
  have hcapacity := hp.numFacts_le_capacity ht.words_eq
  exact ⟨(State.words_apply t e).trans ht.words_eq, fun f => State.lt_of_contains_apply hcapacity hbelow ht.lt⟩

/-- **Any actions in a row**, applicable or not, lead to a state that fits, and need no word beyond those allocated. -/
theorem Fits.foldl (hs : p.Fits s) (hp : p.InTable) {as : List Action} (has : ∀ a ∈ as, a ∈ p.actions) :
    p.Fits (as.foldl (fun t a => a.successor t) s) ∧
      as.foldlM (fun t a => a.successor? t) s = some (as.foldl (fun t a => a.successor t) s) := by
  constructor
  · exact List.foldlRecOn (motive := p.Fits) as _ hs fun t ht a ha => ht.successor hp (has a ha)
  · exact foldlM_eq_some (P := p.Fits)
      (fun t ht a ha => ⟨hp.successor?_eq_some ht.words_eq (has a ha), ht.successor hp (has a ha)⟩) hs

end Problem
end GroundPlanner
