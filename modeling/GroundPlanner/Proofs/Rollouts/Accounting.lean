import GroundPlanner.Proofs.Rollouts.Budget
/-!
# The accounts of a search by rollouts

Every rollout is counted by its end, so the four counters add up to the rollouts, and a success improves the plan once
at most.  A search asks its termination before each rollout and before each step of it: the answers are remembered
(`answers`), and one of them was to stop exactly if time ended a rollout or some rollouts were not made
(`memory_recorded`), which is what a report calls timed out (`searchWith_accounts`).
-/
namespace GroundPlanner
namespace Rollouts

open Termination (Lasts)

/-- What the termination remembers after the rollouts of a search, at most `n`, after `done` others. -/
def memory (T : Termination) (R : RandomSource) (problem : Problem) (maxDepth : Nat) :
    Nat → T.Memory → R.Memory → Nat → T.Memory
  | 0, m, _, _ => m
  | n + 1, m, r, done =>
    match T.check m done with
    | (true, m) => m
    | (false, m) =>
      let w := walk T R problem done maxDepth m r problem.init []
      memory T R problem maxDepth n w.memory w.random (done + 1)

/-- **The answers that a search got from its termination**, latest first. -/
def answers (b : Rollouts) (T : Termination) (R : RandomSource) (p : Problem) : List Bool :=
  (memory T.recorded R p b.maxDepth b.maxSimulations T.recorded.start R.start 0).2

/-- The same walk under a termination that remembers its answers too. -/
def Walk.recorded {T : Termination} {R : RandomSource} (w : Walk T R) (as : List Bool) : Walk T.recorded R :=
  ⟨w.finish, w.path, (w.memory, as), w.random⟩

variable {T : Termination} {R : RandomSource} {b : Rollouts} {p : Problem} {d : Nat}

/-! ## Answers -/

/-- **Time ends a walk exactly if one of the answers during it was to stop.** -/
theorem walk_recorded (steps depth : Nat) (m : T.Memory) (as : List Bool) (r : R.Memory) (s : State)
    (taken : List Nat) :
    ∃ js, walk T.recorded R p steps depth (m, as) r s taken =
        (walk T R p steps depth m r s taken).recorded (js ++ as) ∧
      (true ∈ js ↔ (walk T R p steps depth m r s taken).finish = .timeLimit) := by
  induction depth generalizing m as r s taken with
  | zero => exact ⟨[], rfl, by simp [walk]⟩
  | succ depth ih =>
    unfold walk
    rw [T.recorded_check]
    rcases T.check m steps with ⟨_ | _, m'⟩
    · by_cases hg : p.isGoal s = true
      · simp only [if_pos hg]
        exact ⟨[false], rfl, by simp⟩
      · simp only [if_neg hg]
        split
        · exact ⟨[false], rfl, by simp⟩
        · obtain ⟨js, hwalk, hjs⟩ := ih m' (false :: as) _ _ _
          refine ⟨js ++ [false], ?_, ?_⟩
          · rw [List.append_assoc]
            exact hwalk
          · rw [← hjs]
            simp
    · exact ⟨[true], rfl, by simp⟩

/-- **Remembering the answers changes nothing else.** -/
theorem run_recorded (n : Nat) (m : T.Memory) (as : List Bool) (r : R.Memory) (q : Progress) :
    run T.recorded R p d n (m, as) r q = run T R p d n m r q := by
  induction n generalizing m as r q with
  | zero => rfl
  | succ n ih =>
    unfold run
    rw [T.recorded_check]
    rcases T.check m q.stats.simulations with ⟨_ | _, m'⟩
    · obtain ⟨js, hwalk, -⟩ := walk_recorded (R := R) (p := p) q.stats.simulations d m' (false :: as) r p.init []
      simp only [hwalk]
      exact ih _ _ _ _
    · rfl

theorem searchWith_recorded : b.searchWith T.recorded R p = b.searchWith T R p := by
  unfold searchWith
  rw [run_recorded]
  rfl

/-- Time ended one of the rollouts, or kept some of `n` from being made. -/
def CutShort (n : Nat) (rs : List Rollout) : Prop :=
  (∃ x ∈ rs, x.finish = .timeLimit) ∨ rs.length < n

theorem cutShort_cons {n : Nat} {x : Rollout} {rs : List Rollout} :
    CutShort (n + 1) (x :: rs) ↔ x.finish = .timeLimit ∨ CutShort n rs := by
  simp only [CutShort, List.mem_cons, exists_eq_or_imp, List.length_cons, Nat.add_lt_add_iff_right, or_assoc]

/-- **A search got the answer to stop exactly if** time ended a rollout or kept it from the next one. -/
theorem memory_recorded (n : Nat) (m : T.Memory) (as : List Bool) (r : R.Memory) (done : Nat) :
    ∃ js, (memory T.recorded R p d n (m, as) r done).2 = js ++ as ∧
      (true ∈ js ↔ CutShort n (trail T R p d n m r done)) := by
  induction n generalizing m as r done with
  | zero => exact ⟨[], rfl, by simp [trail, CutShort]⟩
  | succ n ih =>
    unfold memory trail
    rw [T.recorded_check]
    rcases T.check m done with ⟨_ | _, m'⟩
    · obtain ⟨js, hwalk, hjs⟩ := walk_recorded (R := R) (p := p) done d m' (false :: as) r p.init []
      simp only [hwalk]
      generalize walk T R p done d m' r p.init [] = w at hjs ⊢
      obtain ⟨js', hmemory, hjs'⟩ := ih w.memory (js ++ false :: as) w.random (done + 1)
      refine ⟨js' ++ (js ++ [false]), ?_, ?_⟩
      · rw [List.append_assoc, List.append_assoc]
        exact hmemory
      · rw [cutShort_cons, ← hjs, ← hjs']
        simp [or_comm]
    · exact ⟨[true], rfl, by simp [CutShort]⟩

/-- **Under lasting answers a rollout that time ended is the last one**, and no rollout comes after an answer to
stop. -/
theorem trail_lasts (n : Nat) (m : T.Memory) (as : List Bool) (r : R.Memory) (done : Nat)
    (h : Lasts (memory T.recorded R p d n (m, as) r done).2) :
    (true ∈ as → trail T R p d n m r done = []) ∧
    ∀ i x, (trail T R p d n m r done)[i]? = some x → x.finish = .timeLimit →
      i + 1 = (trail T R p d n m r done).length := by
  induction n generalizing m as r done with
  | zero => exact ⟨fun _ => rfl, fun i x hx => by cases hx⟩
  | succ n ih =>
    unfold memory at h
    unfold trail
    rw [T.recorded_check] at h
    rcases hcheck : T.check m done with ⟨_ | _, m'⟩
    · obtain ⟨js, hwalk, hjs⟩ := walk_recorded (R := R) (p := p) done d m' (false :: as) r p.init []
      simp only [hcheck, hwalk] at h ⊢
      generalize walk T R p done d m' r p.init [] = w at hjs h ⊢
      obtain ⟨hstop, hlast⟩ := ih w.memory (js ++ false :: as) w.random (done + 1) h
      refine ⟨fun has => ?_, fun i x hx hfinish => ?_⟩
      · -- The answer to go on with this rollout came after one to stop.
        obtain ⟨js', hmemory, -⟩ := memory_recorded (R := R) (p := p) (d := d) n w.memory (js ++ false :: as) w.random
          (done + 1)
        have hlasts : Lasts ((js' ++ (js ++ [false])) ++ as) := by
          rw [List.append_assoc, List.append_assoc]
          exact hmemory ▸ h
        cases hlasts.eq_true has (by simp : false ∈ js' ++ (js ++ [false]))
      · cases i with
        | zero =>
          obtain rfl := Option.some.inj hx
          rw [hstop (List.mem_append_left _ (hjs.2 hfinish))]
          rfl
        | succ i => exact congrArg (· + 1) (hlast i x hx hfinish)
    · exact ⟨fun _ => rfl, fun i x hx => by cases hx⟩

/-! ## Questions -/

/-- A walk after `steps` rollouts asks after that many only. -/
theorem walk_questions (steps depth : Nat) (ks : List Nat) (r : R.Memory) (s : State) (taken : List Nat) :
    ∃ j, (walk T R p steps depth (T.asked ks) r s taken).memory = T.asked (List.replicate j steps ++ ks) := by
  induction depth generalizing ks r s taken with
  | zero => exact ⟨0, rfl⟩
  | succ depth ih =>
    have hcheck : T.check (T.asked ks) steps = ((T.check (T.asked ks) steps).1, T.asked (steps :: ks)) := rfl
    unfold walk
    rw [hcheck]
    rcases (T.check (T.asked ks) steps).1 with _ | _
    · by_cases hg : p.isGoal s = true
      · simp only [if_pos hg]
        exact ⟨1, rfl⟩
      · simp only [if_neg hg]
        split
        · exact ⟨1, rfl⟩
        · obtain ⟨j, hj⟩ := ih (steps :: ks) _ _ _
          refine ⟨j + 1, hj.trans ?_⟩
          rw [List.replicate_succ', List.append_assoc]
          rfl
    · exact ⟨1, rfl⟩

theorem pairwise_replicate_append {ks : List Nat} {k : Nat} (hks : ks.Pairwise (· ≥ ·)) (hle : ∀ l ∈ ks, l ≤ k)
    (j : Nat) : (List.replicate j k ++ ks).Pairwise (· ≥ ·) ∧ ∀ l ∈ List.replicate j k ++ ks, l ≤ k := by
  constructor
  · refine List.pairwise_append.2 ⟨List.pairwise_replicate.2 (.inr (Nat.le_refl _)), hks, fun i hi l hl => ?_⟩
    rw [List.eq_of_mem_replicate hi]
    exact hle l hl
  · intro l hl
    rcases List.mem_append.1 hl with hl | hl
    · exact Nat.le_of_eq (List.eq_of_mem_replicate hl)
    · exact hle l hl

/-- **A search asks its termination after rising numbers of rollouts.** -/
theorem memory_questions (n : Nat) {ks : List Nat} (hks : ks.Pairwise (· ≥ ·)) (r : R.Memory) (done : Nat)
    (hle : ∀ k ∈ ks, k ≤ done) :
    ∃ ks', memory T R p d n (T.asked ks) r done = T.asked ks' ∧ ks'.Pairwise (· ≥ ·) := by
  induction n generalizing ks r done with
  | zero => exact ⟨ks, rfl, hks⟩
  | succ n ih =>
    have hcheck : T.check (T.asked ks) done = ((T.check (T.asked ks) done).1, T.asked (done :: ks)) := rfl
    have hks : (done :: ks).Pairwise (· ≥ ·) := .cons hle hks
    have hle : ∀ k ∈ done :: ks, k ≤ done := List.forall_mem_cons.2 ⟨Nat.le_refl _, hle⟩
    unfold memory
    rw [hcheck]
    rcases (T.check (T.asked ks) done).1 with _ | _
    · obtain ⟨j, hj⟩ := walk_questions (R := R) (p := p) done d (done :: ks) r p.init []
      obtain ⟨hks, hle⟩ := pairwise_replicate_append hks hle j
      dsimp only
      rw [hj]
      exact ih hks _ (done + 1) fun k hk => Nat.le_succ_of_le (hle k hk)
    · exact ⟨_, rfl, hks⟩

theorem answers_lasts (hT : T.Lasting) : Lasts (b.answers T R p) := by
  obtain ⟨ks, hmemory, hks⟩ := memory_questions (T := T.recorded) (R := R) (p := p) (d := b.maxDepth) b.maxSimulations
    .nil R.start 0 (fun _ hk => absurd hk List.not_mem_nil)
  have hanswers : b.answers T R p = (T.recorded.asked ks).2 := congrArg Prod.snd hmemory
  rw [hanswers]
  exact hT.lasts hks

/-! ## Counters -/

/-- **What the counters of a search account for.** -/
structure Accounted (q : Progress) : Prop where
  simulations_eq : q.stats.simulations =
    q.stats.successes + q.stats.deadEnds + q.stats.depthAborts + q.stats.timeAborts
  improvements_le : q.stats.improvements.length ≤ q.stats.successes

variable {q : Progress} {report : Report} {r : R.Memory}

theorem Accounted.note (h : Accounted q) (x : Rollout) : Accounted (q.note x) := by
  have hsum := h.simulations_eq
  have himp := h.improvements_le
  have hgoal := count_note q x .goal
  have hdead := count_note q x .deadEnd
  have hdepth := count_note q x .depthLimit
  have htime := count_note q x .timeLimit
  simp only [RolloutStats.count] at hgoal hdead hdepth htime
  constructor
  · rw [Progress.simulations_note, hgoal, hdead, hdepth, htime]
    cases x.finish <;> simp only [reduceCtorEq, if_true, if_false] <;> omega
  · by_cases hx : x.finish = .goal ∧ improves x.path q.best = true
    · rw [if_pos hx.1] at hgoal
      rw [hgoal, (Progress.note_improved hx).2, RolloutStats.improve, Progress.improvements_record, List.length_append]
      exact Nat.succ_le_succ himp
    · rw [hgoal, (Progress.note_counted hx).2, Progress.improvements_record]
      exact Nat.le_add_right_of_le himp

theorem accounted_final (xs : List Rollout) : Accounted (xs.foldl Progress.note .start) :=
  List.foldlRecOn xs _ ⟨rfl, Nat.le_refl _⟩ (fun _ hq x _ => hq.note x)

theorem length_made_le : (b.made T R p).length ≤ b.maxSimulations := by
  unfold made
  rw [← trail_take (Nat.le_refl _)]
  exact List.length_take_le _ _

theorem countP_timeLimit_le {xs : List Rollout}
    (h : ∀ i x, xs[i]? = some x → x.finish = .timeLimit → i + 1 = xs.length) :
    xs.countP (fun x => decide (x.finish = .timeLimit)) ≤ 1 := by
  rcases List.eq_nil_or_concat xs with rfl | ⟨init, y, rfl⟩
  · exact Nat.zero_le 1
  · rw [List.concat_eq_append] at h ⊢
    have hnone : init.countP (fun x => decide (x.finish = .timeLimit)) = 0 := by
      refine List.countP_eq_zero.2 (fun x hx htime => ?_)
      obtain ⟨i, hi, rfl⟩ := List.getElem_of_mem hx
      have hget : (init ++ [y])[i]? = some init[i] := by
        rw [List.getElem?_append_left hi, List.getElem?_eq_getElem hi]
      have hlast := h i _ hget (of_decide_eq_true htime)
      rw [List.length_append, List.length_singleton] at hlast
      omega
    rw [List.countP_append, hnone, Nat.zero_add]
    exact List.countP_le_length

/-- **A report calls a search timed out exactly if it was cut short.** -/
theorem timedOut_iff (xs : List Rollout) :
    (b.report (xs.foldl Progress.note .start)).timedOut = true ↔ CutShort b.maxSimulations xs := by
  have htime : (xs.foldl Progress.note .start).stats.timeAborts = xs.countP (fun x => decide (x.finish = .timeLimit)) :=
    count_final xs .timeLimit
  have hsim : (xs.foldl Progress.note .start).stats.simulations = xs.length := (tracks_start.foldl xs).simulations_eq
  simp only [report, CutShort, Bool.or_eq_true, decide_eq_true_eq, htime, hsim, List.countP_pos_iff]

theorem mem_answers_iff : true ∈ b.answers T R p ↔ CutShort b.maxSimulations (b.made T R p) := by
  obtain ⟨js, hanswers, hjs⟩ := memory_recorded (p := p) (d := b.maxDepth) b.maxSimulations T.start [] R.start 0
  rw [List.append_nil] at hanswers
  have hanswers : b.answers T R p = js := hanswers
  rw [hanswers]
  exact hjs

/-- **The accounts of a search by rollouts.**  The four counters add up to the rollouts, which are no more than the
budget allows, and no more improvements are made than successes.  A search that remembers the answers of its termination
is the same, and is timed out exactly if one of them was to stop; otherwise the budget was spent.  Where answers to stop
last, time ends one rollout at most, the last. -/
theorem searchWith_accounts (h : b.searchWith T R p = .ok (report, r)) :
    report.stats.simulations = report.stats.successes + report.stats.deadEnds + report.stats.depthAborts +
      report.stats.timeAborts ∧
    report.stats.simulations ≤ b.maxSimulations ∧
    report.stats.improvements.length ≤ report.stats.successes ∧
    b.searchWith T.recorded R p = .ok (report, r) ∧
    (report.timedOut = true ↔ true ∈ b.answers T R p) ∧
    (report.timedOut = false → report.stats.simulations = b.maxSimulations) ∧
    (T.Lasting ∨ Lasts (b.answers T R p) → report.stats.timeAborts ≤ 1 ∧
      ∀ i x, (b.made T R p)[i]? = some x → x.finish = .timeLimit → i + 1 = report.stats.simulations) := by
  have hrecorded := (searchWith_recorded (T := T)).trans h
  obtain rfl := searchWith_eq_ok h
  have hacc := accounted_final (b.made T R p)
  have hsim : ((b.made T R p).foldl Progress.note .start).stats.simulations = (b.made T R p).length :=
    (tracks_start.foldl _).simulations_eq
  have htimed := timedOut_iff (b := b) (b.made T R p)
  refine ⟨hacc.simulations_eq, Nat.le_trans (Nat.le_of_eq hsim) length_made_le, hacc.improvements_le, hrecorded,
    htimed.trans mem_answers_iff.symm, fun hno => ?_, fun hlasting => ?_⟩
  · refine hsim.trans (Nat.le_antisymm length_made_le (Nat.not_lt.1 fun hlt => ?_))
    rw [htimed.2 (.inr hlt)] at hno
    cases hno
  · have hlasts : Lasts (b.answers T R p) := hlasting.elim answers_lasts id
    obtain ⟨-, hlast⟩ := trail_lasts b.maxSimulations T.start [] R.start 0 hlasts
    refine ⟨?_, fun i x hx htime => (hlast i x hx htime).trans hsim.symm⟩
    exact Nat.le_trans (Nat.le_of_eq (count_final (b.made T R p) .timeLimit)) (countP_timeLimit_le hlast)

/-- Down a corridor of two steps the first rollout succeeds and the second, the last of the budget, is ended by the
seventh answer: the budget is spent, and the search is timed out all the same. -/
theorem searchWith_accounts_corridor : ∃ p report r, (Families.corridor 2).build = .ok p ∧
    (Rollouts.mk 2 6).searchWith (.ofLimits [.checks 6]) (.cycle [0, 3000000000]) p = .ok (report, r) ∧
    report.stats.simulations = 2 ∧ report.stats.successes = 1 ∧ report.stats.timeAborts = 1 ∧ report.timedOut = true ∧
    true ∈ (Rollouts.mk 2 6).answers (.ofLimits [.checks 6]) (.cycle [0, 3000000000]) p ∧
    ∀ i x, ((Rollouts.mk 2 6).made (.ofLimits [.checks 6]) (.cycle [0, 3000000000]) p)[i]? = some x →
      x.finish = .timeLimit → i + 1 = 2 := by
  obtain ⟨p, report, r, hb, hs, hr⟩ := exists_searchWith (b := ⟨2, 6⟩) (T := .ofLimits [.checks 6])
    (R := .cycle [0, 3000000000]) (d := Families.corridor 2) (fun report => report.stats.simulations == 2 &&
      (report.stats.successes == 1 && (report.stats.timeAborts == 1 && report.timedOut))) (by decide +kernel)
  simp only [Bool.and_eq_true, beq_iff_eq] at hr
  obtain ⟨hsim, hsucc, htime, htimed⟩ := hr
  obtain ⟨-, -, -, -, hiff, -, hlasting⟩ := searchWith_accounts hs
  obtain ⟨-, hlast⟩ := hlasting (.inl (Termination.lasting_ofLimits _))
  exact ⟨p, report, r, hb, hs, hsim, hsucc, htime, htimed, hiff.1 htimed,
    fun i x hx hfinish => (hlast i x hx hfinish).trans hsim⟩

end Rollouts
end GroundPlanner
