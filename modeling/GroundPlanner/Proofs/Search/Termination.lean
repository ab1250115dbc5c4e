import GroundPlanner.Search.Termination
/-!
# Terminations and their questions

A termination may remember every question it was asked (`asked`).  One that is `Steady` answers by the steps alone, so a
search that asks more often is stopped after the same step: a termination that never stops a search is steady
(`NeverFires.steady`), and so is a limit on the steps (`steady_afterSteps`).

What was answered can be remembered too (`recorded`).  The answers of a termination that is `Lasting` are lasting:
after one that stops a search come only such ones (`Lasting.lasts`).  All limits are lasting (`lasting_ofLimits`).
-/
namespace GroundPlanner
namespace Limit

theorem reached_succ {l : Limit} {asked made made' : Nat} (hle : made ≤ made')
    (h : l.reached asked made = true) : l.reached (asked + 1) made' = true := by
  cases l with
  | steps n => exact decide_eq_true (Nat.le_trans (of_decide_eq_true h) hle)
  | time d => exact h
  | checks n => exact decide_eq_true (Nat.le_succ_of_le (of_decide_eq_true h))

/-- Limits of which one was reached are still so at the next question. -/
theorem any_again {ls : List Limit} {asked : List Nat} {made made' : Nat} (hle : made ≤ made')
    (h : (any ls asked made).1 = true) : (any ls (any ls asked made).2 made').1 = true := by
  induction ls generalizing asked with
  | nil =>
    unfold any at h
    cases h
  | cons l ls ih =>
    cases asked with
    | nil =>
      unfold any at h
      cases h
    | cons a rest =>
      by_cases hl : l.reached a made = true
      · simp only [any, hl, if_true, reached_succ hle hl]
      · simp only [any, hl, Bool.false_eq_true, if_false] at h ⊢
        split
        · rfl
        · exact ih h

end Limit

namespace Termination

/-- What a termination remembers after the questions `ks`, latest first. -/
def asked (T : Termination) : List Nat → T.Memory
  | [] => T.start
  | k :: ks => (T.check (asked T ks) k).2

/-- Whatever it was asked before, the termination does not stop a search. -/
def NeverFires (T : Termination) : Prop :=
  ∀ ks k, (T.check (T.asked ks) k).1 = false

/-- The termination stops a search by the number of steps only. -/
def Steady (T : Termination) : Prop :=
  ∃ stop : Nat → Bool, ∀ ks k, (T.check (T.asked ks) k).1 = stop k

variable {T : Termination}

theorem check_asked {stop : Nat → Bool} (h : ∀ ks k, (T.check (T.asked ks) k).1 = stop k) (ks : List Nat) (k : Nat) :
    T.check (T.asked ks) k = (stop k, T.asked (k :: ks)) :=
  Prod.ext (h ks k) rfl

theorem neverFires_never : never.NeverFires :=
  fun _ _ => rfl

theorem NeverFires.check_eq (h : T.NeverFires) (ks : List Nat) (k : Nat) :
    T.check (T.asked ks) k = (false, T.asked (k :: ks)) :=
  check_asked h ks k

theorem NeverFires.check_ne (h : T.NeverFires) (ks : List Nat) (k : Nat) (m : T.Memory) :
    T.check (T.asked ks) k ≠ (true, m) := by
  rw [h.check_eq]
  nofun

theorem NeverFires.steady (h : T.NeverFires) : T.Steady :=
  ⟨fun _ => false, h⟩

/-- A single limit remembers the number of questions. -/
theorem asked_ofLimit (l : Limit) (ks : List Nat) : (ofLimits [l]).asked ks = [ks.length] := by
  induction ks with
  | nil => rfl
  | cons k ks ih =>
    have hcheck : (Limit.any [l] [ks.length] k).2 = [ks.length + 1] := by
      simp only [Limit.any]
      split <;> rfl
    unfold asked
    rw [ih]
    exact hcheck

theorem check_ofLimit (l : Limit) (ks : List Nat) (k : Nat) :
    ((ofLimits [l]).check ((ofLimits [l]).asked ks) k).1 = l.reached ks.length k := by
  rw [asked_ofLimit]
  change (Limit.any [l] [ks.length] k).1 = _
  cases h : l.reached ks.length k <;> simp [Limit.any, h]

theorem steady_afterSteps (n : Nat) : (afterSteps n).Steady :=
  ⟨fun k => decide (n ≤ k), fun ks k => check_ofLimit (.steps n) ks k⟩

/-! ## Answers -/

/-- The same termination, which also remembers its answers, latest first. -/
abbrev recorded (T : Termination) : Termination where
  Memory := T.Memory × List Bool
  start := (T.start, [])
  check := fun (m, as) k =>
    let (stop, m) := T.check m k
    (stop, m, stop :: as)
  timeLimit := T.timeLimit

/-- A search that the termination stopped it stops again after as many steps or more. -/
def Lasting (T : Termination) : Prop :=
  ∀ ks k l, k ≤ l → (T.check (T.asked ks) k).1 = true → (T.check (T.asked (k :: ks)) l).1 = true

/-- Among answers, latest first, none to go on comes after one to stop. -/
def Lasts (as : List Bool) : Prop :=
  as.Pairwise (fun later earlier => earlier = true → later = true)

theorem Lasts.eq_true {as js : List Bool} (h : Lasts (js ++ as)) (has : true ∈ as) {b : Bool} (hb : b ∈ js) :
    b = true :=
  (List.pairwise_append.1 h).2.2 b hb true has rfl

theorem recorded_check (m : T.Memory) (as : List Bool) (k : Nat) :
    T.recorded.check (m, as) k = ((T.check m k).1, (T.check m k).2, (T.check m k).1 :: as) :=
  rfl

theorem asked_recorded (ks : List Nat) : (T.recorded.asked ks).1 = T.asked ks := by
  induction ks with
  | nil => rfl
  | cons k ks ih => exact congrArg (fun m => (T.check m k).2) ih

theorem answers_recorded (k : Nat) (ks : List Nat) :
    (T.recorded.asked (k :: ks)).2 = (T.check (T.asked ks) k).1 :: (T.recorded.asked ks).2 :=
  congrArg (fun m => (T.check m k).1 :: (T.recorded.asked ks).2) (asked_recorded ks)

/-- After rising numbers of steps, a lasting termination that gave the answer to stop gives it again. -/
theorem Lasting.check_of_mem (hT : T.Lasting) {ks : List Nat} {k : Nat} (hks : (k :: ks).Pairwise (· ≥ ·))
    (h : true ∈ (T.recorded.asked ks).2) : (T.check (T.asked ks) k).1 = true := by
  induction ks generalizing k with
  | nil => cases h
  | cons l ks ih =>
    obtain ⟨hk, hks⟩ := List.pairwise_cons.1 hks
    have hl : (T.check (T.asked ks) l).1 = true := by
      rw [answers_recorded] at h
      rcases List.mem_cons.1 h with h | h
      · exact h.symm
      · exact ih hks h
    exact hT ks l k (hk l List.mem_cons_self) hl

/-- **The answers of a lasting termination are lasting.** -/
theorem Lasting.lasts (hT : T.Lasting) {ks : List Nat} (hks : ks.Pairwise (· ≥ ·)) : Lasts (T.recorded.asked ks).2 := by
  induction ks with
  | nil => exact .nil
  | cons k ks ih =>
    rw [answers_recorded]
    refine List.pairwise_cons.2 ⟨fun b hb htrue => hT.check_of_mem hks (htrue ▸ hb), ih (List.pairwise_cons.1 hks).2⟩

theorem lasting_ofLimits (ls : List Limit) : (ofLimits ls).Lasting :=
  fun _ _ _ hle h => Limit.any_again hle h

end Termination
end GroundPlanner
