import GroundPlanner.Proofs.Spelling
import Mathlib.Data.List.Induction
/-!
# What holds after an action

The guards of an action are read before it and its effects are applied one after another, so of the effects that fire
the last one to mention a fact decides it (`Action.contains_successor_eq`).  For built actions this holds in every state
of the width of their table (`ActionDraft.successor_last_word`).
-/
namespace GroundPlanner

def Effect.mentions (e : Effect) (f : FactId) : Bool :=
  f ∈ e.add || f ∈ e.delete

/-- The last effect of an action that fires in `s` and mentions `f`. -/
def Action.lastWord (a : Action) (s : State) (f : FactId) : Option GuardedEffect :=
  (a.effects.filter (fun e => s.satisfies e.guard && e.effect.mentions f)).getLast?

theorem State.contains_apply_of_mentions {n : Nat} {s : State} {e : Effect} (hn : n ≤ s.capacity) (he : e.Below n)
    {f : FactId} (hf : e.mentions f = true) : (s.apply e).contains f = decide (f ∈ e.add) := by
  rw [contains_apply hn he]
  simp only [Effect.mentions, Bool.or_eq_true, decide_eq_true_eq] at hf
  rcases hf with hadd | hdel
  · simp [hadd]
  · simp [hdel]

theorem State.contains_apply_of_not_mentions {n : Nat} {s : State} {e : Effect} (hn : n ≤ s.capacity)
    (he : e.Below n) {f : FactId} (hf : ¬ e.mentions f = true) : (s.apply e).contains f = s.contains f := by
  rw [contains_apply hn he]
  simp only [Effect.mentions, Bool.or_eq_true, decide_eq_true_eq, not_or] at hf
  simp [hf.1, hf.2]

/-- **Of effects in a row the last one to mention a fact decides it.** -/
theorem State.contains_foldl_apply_eq {n : Nat} {s : State} {es : List Effect} (hn : n ≤ s.capacity)
    (hes : ∀ e ∈ es, e.Below n) (f : FactId) : (es.foldl apply s).contains f =
      match (es.filter (·.mentions f)).getLast? with
      | some e => decide (f ∈ e.add)
      | none => s.contains f := by
  induction es using List.reverseRecOn with
  | nil => rfl
  | append_singleton es e ih =>
    have he := hes e (List.mem_append_right _ List.mem_cons_self)
    have hn' : n ≤ (es.foldl apply s).capacity := by rwa [capacity, words_foldl_apply]
    rw [List.foldl_concat, List.filter_append]
    by_cases hf : e.mentions f = true
    · have hkept : [e].filter (·.mentions f) = [e] := List.filter_eq_self.2 (by simpa using hf)
      rw [contains_apply_of_mentions hn' he hf, hkept, List.getLast?_concat]
    · have hdropped : [e].filter (·.mentions f) = [] := List.filter_eq_nil_iff.2 (by simpa using hf)
      rw [contains_apply_of_not_mentions hn' he hf, hdropped, List.append_nil]
      exact ih fun e he => hes e (List.mem_append_left _ he)

/-- **The last word on a fact decides it**, and a fact that no effect mentions stays as it was. -/
theorem Action.contains_successor_eq {n : Nat} {a : Action} {s : State} (hn : n ≤ s.capacity) (ha : a.Below n)
    (f : FactId) : (a.successor s).contains f =
      match a.lastWord s f with
      | some e => decide (f ∈ e.effect.add)
      | none => s.contains f := by
  have hbelow : ∀ e ∈ a.fired s, e.Below n := by
    intro e he
    obtain ⟨g, hg, rfl⟩ := List.mem_map.1 he
    exact (ha.2 g (List.mem_filter.1 hg).1).2
  rw [successor, State.contains_foldl_apply_eq hn hbelow, lastWord, fired, List.filter_map, List.filter_filter,
    List.getLast?_map]
  have hboth : ∀ g ∈ a.effects, (((fun e : Effect => e.mentions f) ∘ GuardedEffect.effect) g && s.satisfies g.guard) =
      (s.satisfies g.guard && g.effect.mentions f) := fun g _ => Bool.and_comm _ _
  rw [List.filter_congr hboth]
  cases (a.effects.filter (fun g => s.satisfies g.guard && g.effect.mentions f)).getLast? <;> rfl

/-- **What holds after a built action**, in a state as wide as its table: its effects are those of the draft in their
order, and of these the last that fires and mentions a fact decides it. -/
theorem ActionDraft.successor_last_word {table : List String} {a : ActionDraft} {b : Action} {s : State}
    (hb : a.build table = .ok b) (hs : s.words = State.wordsFor table.length) :
    List.Forall₂ (fun e g => e.build table (.action a.name) = .ok g) a.sequence b.effects ∧
      (∀ f, (b.successor s).contains f =
        match b.lastWord s f with
        | some e => decide (f ∈ e.effect.add)
        | none => s.contains f) ∧
      (b.successor s).words = s.words := by
  have hn : table.length ≤ s.capacity := by
    rw [State.capacity, hs]
    exact State.le_capacity_empty table.length
  exact ⟨(build_eq_ok hb).2.2, Action.contains_successor_eq hn (build_below hb), Action.words_successor b s⟩

/-- A token goes from bit 0 to bit 64 and from there at once to bit 1. -/
def shift : ActionDraft where
  name := "shift"
  add := ["64"]
  del := ["0"]
  when := [{ pre := ["0"], add := ["1"], del := ["64"] }, { pre := ["64"], del := ["1"] }]

/-- The last effect of the shift does not fire: bit 64, which it asks for, does not hold before. -/
theorem successor_last_word_shift : ∃ b s, shift.build ((List.range 65).map Text.ofNat) = .ok b ∧
    s = State.ofFacts 65 [0] ∧ s.words = State.wordsFor ((List.range 65).map Text.ofNat).length ∧
    (b.successor s).contains 0 = false ∧ (b.successor s).contains 1 = true ∧ (b.successor s).contains 64 = false := by
  have hb : shift.build ((List.range 65).map Text.ofNat) = .ok ⟨"shift", .trivial,
      [⟨.trivial, ⟨[64], [0]⟩⟩, ⟨⟨[0], []⟩, ⟨[1], [64]⟩⟩, ⟨⟨[64], []⟩, ⟨[], [1]⟩⟩]⟩ := by decide +kernel
  have hs : (State.ofFacts 65 [0]).words = State.wordsFor ((List.range 65).map Text.ofNat).length := by decide +kernel
  obtain ⟨-, hlast, -⟩ := ActionDraft.successor_last_word hb hs
  exact ⟨_, _, hb, rfl, hs, (hlast 0).trans (by decide +kernel), (hlast 1).trans (by decide +kernel),
    (hlast 64).trans (by decide +kernel)⟩

end GroundPlanner
