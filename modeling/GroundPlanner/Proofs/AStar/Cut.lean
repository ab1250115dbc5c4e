import GroundPlanner.Proofs.AStar.Ending
/-!
# Searches cut short

A search is the same turns for every termination (`after`): the termination only says before which of them it stops.
If it first says so at question `n + 1`, the search ends with what an unstopped one has after `n` turns, or has ended
like it before that (`Ends.cut`).  A limit of `k` steps stops exactly the searches that expand `k` states
(`Ends.limited`).  `search_cut` says both of the reports.
-/
namespace GroundPlanner
namespace AStar
namespace Setup

/-- The search `n` turns later, if it goes on that long. -/
def after (s : Setup) : Nat → Progress → Option Progress
  | 0, p => some p
  | n + 1, p =>
    match s.advance p with
    | .more q => s.after n q
    | .done .. => none

/-- Of the questions that the search asks from `p` on, the termination says yes to number `n + 1` first, if the search
asks that many. -/
def FirstStop (s : Setup) (T : Termination) : Nat → T.Memory → Progress → Prop
  | 0, m, p => (T.check m p.stats.explored).1 = true
  | n + 1, m, p => (T.check m p.stats.explored).1 = false ∧
    ∀ q, s.advance p = .more q → s.FirstStop T n (T.check m p.stats.explored).2 q

/-- The number of questions that `run` asks the termination. -/
def questions (s : Setup) (T : Termination) : Nat → T.Memory → Progress → Nat
  | 0, _, _ => 0
  | n + 1, m, p =>
    match T.check m p.stats.explored with
    | (true, _) => 1
    | (false, m) =>
      match s.advance p with
      | .more q => s.questions T n m q + 1
      | .done .. => 1

variable {s : Setup} {T T₀ : Termination} {m : T.Memory} {p q f : Progress} {o : SearchOutcome} {n k : Nat}

/-! ## Turns -/

theorem Valid.after (hv : s.Valid p) (h : s.after n p = some q) :
    s.Valid q ∧ q.stats.popped = p.stats.popped + n := by
  induction n generalizing p with
  | zero =>
    obtain rfl := Option.some.inj h
    exact ⟨hv, rfl⟩
  | succ n ih =>
    unfold Setup.after at h
    split at h
    · rename_i hadv
      obtain ⟨hq, hpop⟩ := ih (hv.more hadv) h
      refine ⟨hq, ?_⟩
      rw [hpop, hv.popped_more hadv]
      omega
    · cases h

theorem Balanced.after (hb : s.Balanced p) (hv : s.Valid p) (h : s.after n p = some q) : s.Balanced q := by
  induction n generalizing p with
  | zero =>
    obtain rfl := Option.some.inj h
    exact hb
  | succ n ih =>
    unfold Setup.after at h
    split at h
    · rename_i hadv
      exact ih (hb.more hv hadv) (hv.more hadv) h
    · cases h

/-- **An unstopped search asks one question more than it takes turns that do not end it.** -/
theorem lt_questions_iff (hT : T.NeverFires) (ks : List Nat) (hv : s.Valid p) {turns : Nat}
    (hn : s.potential p < turns) : n < s.questions T turns (T.asked ks) p ↔ (s.after n p).isSome = true := by
  induction turns generalizing n p ks with
  | zero => exact absurd hn (Nat.not_lt_zero _)
  | succ turns ih =>
    have hcheck : T.check (T.asked ks) p.stats.explored = (false, T.asked (p.stats.explored :: ks)) :=
      Prod.ext (hT ks _) rfl
    unfold questions
    simp only [hcheck]
    cases hadv : s.advance p with
    | more q =>
      cases n with
      | zero => exact iff_of_true (Nat.succ_pos _) rfl
      | succ n =>
        have hlt := Nat.lt_of_lt_of_le (hv.potential_lt hadv) (Nat.le_of_lt_succ hn)
        simp only [Setup.after, hadv]
        rw [Nat.succ_lt_succ_iff]
        exact ih _ (hv.more hadv) hlt
    | done o f =>
      cases n with
      | zero => exact iff_of_true (Nat.succ_pos _) rfl
      | succ n =>
        simp only [Setup.after, hadv]
        exact iff_of_false (by omega) (by decide)

/-! ## Stopped at a question -/

/-- **A search stopped at question `n + 1`** has ended like an unstopped one, or ends where that is after `n` turns. -/
theorem Ends.cut (h₀ : T₀.NeverFires) {m₀ : T₀.Memory} (h : s.Ends T₀ m₀ p o f) (ks : List Nat)
    (hm : m₀ = T₀.asked ks) (hT : s.FirstStop T n m p) :
    (s.after n p = none → s.Ends T m p o f) ∧ ∀ q, s.after n p = some q → s.Ends T m p .timedOut q := by
  -- By the turns of the unstopped search: it was asked `ks` so far, and the other has `n` questions to go.
  induction h generalizing n m ks with
  | @stopped _ _ p hs =>
    subst hm
    exact absurd hs (h₀.check_ne ks _ _)
  | @last _ _ p f o _ hadv =>
    cases n with
    | zero =>
      refine ⟨fun hnone => (nomatch hnone), fun q hq => ?_⟩
      obtain rfl := Option.some.inj hq
      exact .stopped (Prod.ext hT rfl)
    | succ n =>
      refine ⟨fun _ => .last (Prod.ext hT.1 rfl) hadv, fun q hq => ?_⟩
      simp only [Setup.after, hadv] at hq
      cases hq
  | @turn _ _ p q _ _ hs hadv _ ih =>
    subst hm
    cases n with
    | zero =>
      refine ⟨fun hnone => (nomatch hnone), fun q hq => ?_⟩
      obtain rfl := Option.some.inj hq
      exact .stopped (Prod.ext hT rfl)
    | succ n =>
      simp only [Setup.after, hadv]
      obtain ⟨hend, hcut⟩ := ih (_ :: ks) (congrArg Prod.snd hs).symm (hT.2 q hadv)
      exact ⟨fun hnone => .turn (Prod.ext hT.1 rfl) hadv (hend hnone),
        fun q' hq' => .turn (Prod.ext hT.1 rfl) hadv (hcut q' hq')⟩

/-- A limit on the questions stops every search at the one after them. -/
theorem firstStop_checks (s : Setup) (n k : Nat) (ks : List Nat) (hk : ks.length + k = n) (p : Progress) :
    s.FirstStop (.ofLimits [.checks n]) k ((Termination.ofLimits [.checks n]).asked ks) p := by
  have hcheck := Termination.check_ofLimit (.checks n) ks p.stats.explored
  induction k generalizing ks p with
  | zero =>
    refine hcheck.trans (decide_eq_true ?_)
    omega
  | succ k ih =>
    refine ⟨hcheck.trans (decide_eq_false (by omega)), fun q _ => ?_⟩
    exact ih (p.stats.explored :: ks) (by rw [List.length_cons]; omega) q (Termination.check_ofLimit _ _ _)

/-! ## Stopped after a number of steps -/

theorem Ends.explored_le (h : s.Ends T m p o f) (hv : s.Valid p) : p.stats.explored ≤ f.stats.explored := by
  induction h with
  | stopped => exact Nat.le_refl _
  | last _ hadv => exact Nat.le_of_eq (hv.queue.finished hadv).explored_eq.symm
  | turn _ hadv _ ih =>
    have hle := ih (hv.more hadv)
    rcases hv.explored_more hadv with heq | heq <;> omega

/-- **A search limited to `k` steps** is stopped with `k` expansions, if an unstopped one makes that many, and ends like
it otherwise. -/
theorem Ends.limited (h₀ : T₀.NeverFires) {m₀ : T₀.Memory} (h : s.Ends T₀ m₀ p o f) (ks : List Nat)
    (hm : m₀ = T₀.asked ks) (hv : s.Valid p) (hp : p.stats.explored ≤ k) (ks' : List Nat) :
    (k ≤ f.stats.explored → ∃ q, s.Ends (.afterSteps k) ((Termination.afterSteps k).asked ks') p .timedOut q ∧
      q.stats.explored = k) ∧
    (f.stats.explored < k → s.Ends (.afterSteps k) ((Termination.afterSteps k).asked ks') p o f) := by
  induction h generalizing ks ks' with
  | @stopped _ _ p hs =>
    subst hm
    exact absurd hs (h₀.check_ne ks _ _)
  | @last _ _ p f o _ hadv =>
    have hcheck := Termination.check_ofLimit (.steps k) ks' p.stats.explored
    have hf : f.stats.explored = p.stats.explored := (hv.queue.finished hadv).explored_eq
    refine ⟨fun hk => ⟨p, .stopped (Prod.ext (hcheck.trans (decide_eq_true (hf ▸ hk))) rfl), by omega⟩, fun hk => ?_⟩
    exact .last (Prod.ext (hcheck.trans (decide_eq_false (by omega))) rfl) hadv
  | @turn _ _ p q f o hs hadv he ih =>
    subst hm
    have hcheck := Termination.check_ofLimit (.steps k) ks' p.stats.explored
    have hle := he.explored_le (hv.more hadv)
    have hnext := hv.explored_more hadv
    by_cases hk : p.stats.explored = k
    · refine ⟨fun _ => ⟨p, .stopped (Prod.ext (hcheck.trans (decide_eq_true (Nat.le_of_eq hk.symm))) rfl), hk⟩, ?_⟩
      omega
    · have hgo : (Termination.afterSteps k).check ((Termination.afterSteps k).asked ks') p.stats.explored =
          (false, (Termination.afterSteps k).asked (p.stats.explored :: ks')) :=
        Prod.ext (hcheck.trans (decide_eq_false (by omega))) rfl
      obtain ⟨hstop, hend⟩ := ih (_ :: ks) (congrArg Prod.snd hs).symm (hv.more hadv) (by omega)
        (p.stats.explored :: ks')
      refine ⟨fun hf => ?_, fun hf => .turn hgo hadv (hend hf)⟩
      obtain ⟨q', hq', hk'⟩ := hstop hf
      exact ⟨q', .turn hgo hadv hq', hk'⟩

end Setup

variable {a : AStar} {T₀ : Termination} {p : Problem} {r : Report}

/-- The number of questions that a search asks the termination. -/
def questions (a : AStar) (T : Termination) (p : Problem) : Nat :=
  (a.setup p).questions T (a.setup p).turns T.start (a.setup p).start

/-- **Stopped at question `n + 1`**, a search ends like the unstopped one, if that asks no more than `n` questions, and
otherwise where that is after `n` turns. -/
theorem ending_cut (a : AStar) (h₀ : T₀.NeverFires) {T : Termination} {n : Nat} {p : Problem}
    (hstop : (a.setup p).FirstStop T n T.start (a.setup p).start) :
    (a.questions T₀ p ≤ n → a.ending T p = a.ending T₀ p) ∧
    (n < a.questions T₀ p → (a.ending T p).1 = .timedOut ∧
      (a.setup p).after n (a.setup p).start = some (a.ending T p).2) := by
  have hcount : n < a.questions T₀ p ↔ _ :=
    (a.setup p).lt_questions_iff h₀ [] (a.setup p).valid_start (a.potential_lt_turns p)
  obtain ⟨hsame, hcut⟩ := (a.ending_ends T₀ p).cut h₀ [] rfl hstop
  constructor
  · intro hle
    have hnone : (a.setup p).after n (a.setup p).start = none := by
      rw [← Option.not_isSome_iff_eq_none, ← hcount]
      exact Nat.not_lt.2 hle
    obtain ⟨ho, hf⟩ := (a.ending_ends T p).unique (hsame hnone)
    exact Prod.ext ho hf
  · intro hlt
    obtain ⟨q, hq⟩ := Option.isSome_iff_exists.1 (hcount.1 hlt)
    obtain ⟨ho, hf⟩ := (a.ending_ends T p).unique (hcut q hq)
    exact ⟨ho, hf ▸ hq⟩

/-- **Limited to `k` steps**, a search ends after them, if the unstopped one expands that many states, and otherwise
like it. -/
theorem ending_limited (a : AStar) (h₀ : T₀.NeverFires) (p : Problem) (k : Nat) :
    (k ≤ (a.ending T₀ p).2.stats.explored →
      (a.ending (.afterSteps k) p).1 = .timedOut ∧ (a.ending (.afterSteps k) p).2.stats.explored = k) ∧
    ((a.ending T₀ p).2.stats.explored < k → a.ending (.afterSteps k) p = a.ending T₀ p) := by
  obtain ⟨hstop, hsame⟩ :=
    (a.ending_ends T₀ p).limited h₀ [] rfl (a.setup p).valid_start (Nat.zero_le k) []
  constructor
  · intro hle
    obtain ⟨q, hq, hk⟩ := hstop hle
    obtain ⟨ho, hf⟩ := (a.ending_ends (.afterSteps k) p).unique hq
    exact ⟨ho, hf ▸ hk⟩
  · intro hlt
    obtain ⟨ho, hf⟩ := (a.ending_ends (.afterSteps k) p).unique (hsame hlt)
    exact Prod.ext ho hf

/-- **A search cut short is a part of the uncut one.**  Stopped at question `n + 1`, it gives the same report, if the
uncut search asks no more than `n` questions, and otherwise what that has after `n` turns, each of which took one node
off the open list.  Limited to `k` steps, it is stopped exactly if the uncut search expands `k` states. -/
theorem search_cut (h₀ : T₀.NeverFires) (h : a.search T₀ p = .ok r) :
    (∀ (T : Termination) (n : Nat), T.timeLimit ≠ some .zero → (a.setup p).FirstStop T n T.start (a.setup p).start →
      ∃ r', a.search T p = .ok r' ∧ (a.questions T₀ p ≤ n → r' = r) ∧
        (n < a.questions T₀ p → r'.outcome = .timedOut ∧ r'.stats.popped = n ∧ r'.stats.goalCost = none ∧
          ∃ q, (a.setup p).after n (a.setup p).start = some q ∧
            r'.stats = { q.stats with openHighWater := q.openList.highWater })) ∧
    ∀ k, ∃ r', a.search (.afterSteps k) p = .ok r' ∧ (r'.outcome = .timedOut ↔ k ≤ r.stats.explored) ∧
      (k ≤ r.stats.explored → r'.stats.explored = k) ∧ (r.stats.explored < k → r' = r) := by
  obtain ⟨hcheck, rfl⟩ := search_eq_ok_iff.1 h
  obtain ⟨hsupported, hweight, -⟩ := check_eq_ok_iff.1 hcheck
  constructor
  · intro T n hlimit hstop
    refine ⟨_, search_eq_ok_iff.2 ⟨check_eq_ok_iff.2 ⟨hsupported, hweight, hlimit⟩, rfl⟩, ?_⟩
    obtain ⟨hsame, hcut⟩ := a.ending_cut h₀ hstop
    refine ⟨fun hle => by rw [hsame hle], fun hlt => ?_⟩
    obtain ⟨ho, hq⟩ := hcut hlt
    have hv := (a.setup p).valid_start
    have hpopped := (hv.after hq).2.trans (Nat.zero_add n)
    exact ⟨ho, hpopped, ((a.setup p).balanced_start.after hv hq).goalCost_eq, _, hq, rfl⟩
  · intro k
    refine ⟨_, search_eq_ok_iff.2 ⟨check_eq_ok_iff.2 ⟨hsupported, hweight, nofun⟩, rfl⟩, ?_⟩
    obtain ⟨hstop, hsame⟩ := a.ending_limited h₀ p k
    refine ⟨⟨fun ho => ?_, fun hle => (hstop hle).1⟩, fun hle => (hstop hle).2, fun hlt => by rw [hsame hlt]⟩
    by_contra hlt
    refine a.ending_ne_timedOut h₀ p ?_
    rw [← hsame (Nat.not_le.1 hlt)]
    exact ho

/-- Two bits span four states: stopped at the fourth question the search has taken three nodes off the open list, and
limited to two steps it has expanded two states. -/
theorem search_cut_toggles : ∃ p r r₁ r₂, (Families.toggleSpace 2).build = .ok p ∧
    (AStar.mk .max 1.0 false).search .never p = .ok r ∧ r.outcome = .exhausted ∧ r.stats.explored = 4 ∧
    (AStar.mk .max 1.0 false).search (.ofLimits [.checks 3]) p = .ok r₁ ∧ r₁.outcome = .timedOut ∧
    r₁.stats.popped = 3 ∧
    (AStar.mk .max 1.0 false).search (.afterSteps 2) p = .ok r₂ ∧ r₂.outcome = .timedOut ∧ r₂.stats.explored = 2 := by
  obtain ⟨p, r, hb, hs, ho⟩ := exists_search (a := AStar.mk .max 1.0 false) (T := .never)
    (d := Families.toggleSpace 2) (fun p r => r.outcome = .exhausted && (r.stats.explored == 4 &&
      decide (3 < (AStar.mk .max 1.0 false).questions .never p))) (by decide +kernel)
  simp only [Bool.and_eq_true, decide_eq_true_eq, beq_iff_eq] at ho
  obtain ⟨ho, hexplored, hlt⟩ := ho
  obtain ⟨hcut, hlimited⟩ := search_cut Termination.neverFires_never hs
  obtain ⟨r₁, hs₁, -, hstop⟩ := hcut (.ofLimits [.checks 3]) 3 nofun (Setup.firstStop_checks _ 3 3 [] rfl _)
  obtain ⟨ho₁, hpopped, -⟩ := hstop hlt
  obtain ⟨r₂, hs₂, hiff, hcount, -⟩ := hlimited 2
  have hle : 2 ≤ r.stats.explored := by omega
  exact ⟨p, r, r₁, r₂, hb, hs, ho, hexplored, hs₁, ho₁, hpopped, hs₂, hiff.2 hle, hcount hle⟩

end AStar
end GroundPlanner
