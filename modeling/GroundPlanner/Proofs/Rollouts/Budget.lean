import GroundPlanner.Proofs.Rollouts.Best
import GroundPlanner.Proofs.Search.Termination
/-!
# A larger budget of rollouts

The budget only says where the list of rollouts ends, so a search with a larger one makes the same rollouts first
(`trail_take`).  What is accounted for later only `Continues` what was accounted for before: nothing that was logged or
counted changes, and the best path gets no longer.  Under a termination that never fires a search spends its whole
budget (`trail_spent`), which makes the reports comparable (`searchWith_budget`).
-/
namespace GroundPlanner

namespace RolloutStats

/-- How many of the rollouts ended so. -/
def count (s : RolloutStats) : RolloutEnd → Nat
  | .goal => s.successes
  | .deadEnd => s.deadEnds
  | .depthLimit => s.depthAborts
  | .timeLimit => s.timeAborts

theorem count_record (s : RolloutStats) (e f : RolloutEnd) :
    (s.record e).count f = s.count f + if e = f then 1 else 0 := by
  cases e <;> cases f <;> rfl

end RolloutStats

namespace Rollouts

variable {T : Termination} {R : RandomSource} {b : Rollouts} {p : Problem} {q q' q'' : Progress}

/-! ## The rollouts of two budgets -/

/-- **The rollouts of a smaller budget are the first of a larger one.** -/
theorem trail_take {i n : Nat} (h : i ≤ n) (d : Nat) (m : T.Memory) (r : R.Memory) (done : Nat) :
    (trail T R p d n m r done).take i = trail T R p d i m r done := by
  induction i generalizing n m r done with
  | zero => rw [List.take_zero]; rfl
  | succ i ih =>
    cases n with
    | zero => exact absurd h (Nat.not_succ_le_zero i)
    | succ n =>
      unfold trail
      split
      · exact List.take_nil
      · simp only [List.take_succ_cons, List.cons.injEq, true_and]
        exact ih (Nat.le_of_succ_le_succ h) _ _ _

/-- A walk whose termination never fires asks questions only, and time does not end it. -/
theorem walk_asked (hT : T.NeverFires) (steps depth : Nat) (ks : List Nat) (r : R.Memory) (s : State)
    (done : List Nat) :
    (walk T R p steps depth (T.asked ks) r s done).finish ≠ .timeLimit ∧
    ∃ ks', (walk T R p steps depth (T.asked ks) r s done).memory = T.asked ks' := by
  induction depth generalizing ks r s done with
  | zero => exact ⟨nofun, ks, rfl⟩
  | succ depth ih =>
    unfold walk
    rw [hT.check_eq]
    by_cases hg : p.isGoal s = true
    · simp only [if_pos hg]
      exact ⟨nofun, _, rfl⟩
    · simp only [if_neg hg]
      split
      · exact ⟨nofun, _, rfl⟩
      · exact ih _ _ _ _

/-- **A search whose termination never fires spends its budget**, and time ends none of its rollouts. -/
theorem trail_spent (hT : T.NeverFires) (d n : Nat) (ks : List Nat) (r : R.Memory) (done : Nat) :
    (trail T R p d n (T.asked ks) r done).length = n ∧
    ∀ x ∈ trail T R p d n (T.asked ks) r done, x.finish ≠ .timeLimit := by
  induction n generalizing ks r done with
  | zero => exact ⟨rfl, fun _ h => absurd h List.not_mem_nil⟩
  | succ n ih =>
    unfold trail
    rw [hT.check_eq]
    obtain ⟨hne, ks', hmem⟩ := walk_asked (R := R) (p := p) hT done d (done :: ks) r p.init []
    obtain ⟨hlen, hall⟩ := hmem ▸ ih ks' _ (done + 1)
    refine ⟨congrArg (· + 1) hlen, fun x hx => ?_⟩
    rcases List.mem_cons.1 hx with rfl | hx
    · exact hne
    · exact hall x hx

theorem made_spent (hT : T.NeverFires) : (b.made T R p).length = b.maxSimulations ∧
    ∀ x ∈ b.made T R p, x.finish ≠ .timeLimit :=
  trail_spent hT b.maxDepth b.maxSimulations [] R.start 0

/-! ## What later rollouts leave as it is -/

/-- **The progress `q'` came after `q`.** -/
structure Continues (q q' : Progress) : Prop where
  simulations_le : q.stats.simulations ≤ q'.stats.simulations
  events : q.events <:+ q'.events
  improvements : ∃ later, q'.stats.improvements = q.stats.improvements ++ later ∧
    ∀ e ∈ later, q.stats.simulations < e.1
  best : ∀ path, q.best = some path → ∃ path', q'.best = some path' ∧ path'.length ≤ path.length

namespace Continues

theorem refl (q : Progress) : Continues q q where
  simulations_le := Nat.le_refl _
  events := List.suffix_refl _
  improvements := ⟨[], (List.append_nil _).symm, fun _ h => absurd h List.not_mem_nil⟩
  best path h := ⟨path, h, Nat.le_refl _⟩

theorem trans (h : Continues q q') (h' : Continues q' q'') : Continues q q'' where
  simulations_le := Nat.le_trans h.simulations_le h'.simulations_le
  events := h.events.trans h'.events
  improvements := by
    obtain ⟨later, himp, hlater⟩ := h.improvements
    obtain ⟨later', himp', hlater'⟩ := h'.improvements
    refine ⟨later ++ later', by rw [himp', himp, List.append_assoc], fun e he => ?_⟩
    rcases List.mem_append.1 he with he | he
    · exact hlater e he
    · exact Nat.lt_of_le_of_lt h.simulations_le (hlater' e he)
  best path hpath := by
    obtain ⟨path', hpath', hle⟩ := h.best path hpath
    obtain ⟨path'', hpath'', hle'⟩ := h'.best path' hpath'
    exact ⟨path'', hpath'', Nat.le_trans hle' hle⟩

theorem note (q : Progress) (x : Rollout) : Continues q (q.note x) where
  simulations_le := by
    rw [Progress.simulations_note]
    exact Nat.le_succ _
  events := by
    unfold Progress.note Progress.record
    simp only
    split <;> split <;> simp only [List.suffix_cons_iff, List.suffix_refl, or_true]
  improvements := by
    by_cases hx : x.finish = .goal ∧ improves x.path q.best = true
    · rw [(Progress.note_improved hx).2]
      refine ⟨[(q.stats.simulations + 1, x.path.length)], ?_, ?_⟩
      · rw [RolloutStats.improve, Progress.improvements_record]
      · intro e he
        rw [List.mem_singleton.1 he]
        exact Nat.lt_succ_self _
    · rw [(Progress.note_counted hx).2, Progress.improvements_record]
      exact (refl q).improvements
  best path hpath := by
    by_cases hx : x.finish = .goal ∧ improves x.path q.best = true
    · refine ⟨x.path, (Progress.note_improved hx).1, Nat.le_of_lt ?_⟩
      have himp := hx.2
      rw [hpath] at himp
      exact of_decide_eq_true himp
    · exact ⟨path, (Progress.note_counted hx).1.trans hpath, Nat.le_refl _⟩

theorem foldl (q : Progress) (xs : List Rollout) : Continues q (xs.foldl Progress.note q) := by
  induction xs generalizing q with
  | nil => exact refl q
  | cons x xs ih => exact (note q x).trans (ih (q.note x))

end Continues

theorem count_note (q : Progress) (x : Rollout) (e : RolloutEnd) :
    (q.note x).stats.count e = q.stats.count e + if x.finish = e then 1 else 0 := by
  by_cases hx : x.finish = .goal ∧ improves x.path q.best = true
  · rw [(Progress.note_improved hx).2, ← RolloutStats.count_record]
    cases e <;> rfl
  · rw [(Progress.note_counted hx).2, RolloutStats.count_record]

/-- **The counters count the rollouts by their ends.** -/
theorem count_foldl (xs : List Rollout) (q : Progress) (e : RolloutEnd) :
    (xs.foldl Progress.note q).stats.count e = q.stats.count e + xs.countP (fun x => decide (x.finish = e)) := by
  induction xs generalizing q with
  | nil => rfl
  | cons x xs ih =>
    rw [List.foldl_cons, ih, count_note, List.countP_cons]
    simp only [decide_eq_true_eq]
    omega

theorem count_final (xs : List Rollout) (e : RolloutEnd) :
    (xs.foldl Progress.note .start).stats.count e = xs.countP (fun x => decide (x.finish = e)) := by
  rw [count_foldl]
  cases e <;> exact Nat.zero_add _

theorem countP_ends {xs : List Rollout} (h : ∀ x ∈ xs, x.finish ≠ .timeLimit) :
    xs.countP (fun x => decide (x.finish = .goal)) + xs.countP (fun x => decide (x.finish = .deadEnd)) +
      xs.countP (fun x => decide (x.finish = .depthLimit)) = xs.length := by
  induction xs with
  | nil => rfl
  | cons x xs ih =>
    have hx := h x List.mem_cons_self
    have hxs := ih (fun y hy => h y (List.mem_cons_of_mem x hy))
    simp only [List.countP_cons, List.length_cons, decide_eq_true_eq]
    cases hf : x.finish with
    | timeLimit => exact absurd hf hx
    | _ => simp only [reduceCtorEq, if_true, if_false]; omega

/-- **Every rollout that time did not end is counted once.** -/
theorem ends_final {xs : List Rollout} (h : ∀ x ∈ xs, x.finish ≠ .timeLimit) :
    (xs.foldl Progress.note .start).stats.successes + (xs.foldl Progress.note .start).stats.deadEnds +
      (xs.foldl Progress.note .start).stats.depthAborts = xs.length := by
  rw [← countP_ends h, ← count_final, ← count_final, ← count_final]
  rfl

/-! ## The first rollouts of a search -/

/-- **The first rollouts are continued by the rest.** -/
theorem Continues.of_take (ys : List Rollout) (m : Nat) :
    Continues ((ys.take m).foldl Progress.note .start) (ys.foldl Progress.note .start) := by
  have h := foldl ((ys.take m).foldl Progress.note .start) (ys.drop m)
  rwa [← List.foldl_append, List.take_append_drop] at h

theorem count_take_le (ys : List Rollout) (m : Nat) (e : RolloutEnd) :
    ((ys.take m).foldl Progress.note .start).stats.count e ≤ (ys.foldl Progress.note .start).stats.count e := by
  rw [count_final, count_final]
  exact (List.take_sublist m ys).countP_le

theorem ends_take {ys : List Rollout} (h : ∀ x ∈ ys, x.finish ≠ .timeLimit) {m : Nat} (hm : m ≤ ys.length)
    {q q' : Progress} (hq : (ys.take m).foldl Progress.note .start = q) (hq' : ys.foldl Progress.note .start = q') :
    (q'.stats.successes - q.stats.successes) + (q'.stats.deadEnds - q.stats.deadEnds) +
      (q'.stats.depthAborts - q.stats.depthAborts) = ys.length - m := by
  have hfirst := ends_final (fun x hx => h x (List.mem_of_mem_take hx) : ∀ x ∈ ys.take m, x.finish ≠ .timeLimit)
  have hall := ends_final h
  have hgoal := count_take_le ys m .goal
  have hdead := count_take_le ys m .deadEnd
  have hdepth := count_take_le ys m .depthLimit
  rw [List.length_take_of_le hm] at hfirst
  rw [hq] at hfirst hgoal hdead hdepth
  rw [hq'] at hall hgoal hdead hdepth
  simp only [RolloutStats.count] at hgoal hdead hdepth
  omega

/-! ## Whole searches -/

theorem check_eq_ok_iff : b.check T p = .ok () ↔ (∀ f ∈ p.requirements, f.supported = true) ∧
    b.maxSimulations ≠ 0 ∧ b.maxDepth ≠ 0 ∧ T.timeLimit ≠ some .zero := by
  rw [← Problem.checkSupported_eq_ok_iff]
  unfold check
  cases Problem.checkSupported p.requirements with
  | error e => simp [bind, Except.bind]
  | ok u =>
    by_cases hs : b.maxSimulations = 0 <;> by_cases hd : b.maxDepth = 0 <;>
      by_cases ht : T.timeLimit = some .zero <;>
      simp [hs, hd, ht, bind, Except.bind, throw, throwThe, MonadExceptOf.throw, pure, Except.pure]

/-- Of the budget it only matters for a refusal whether it is empty. -/
theorem check_congr {m n d : Nat} (hm : 0 < m) (hn : 0 < n) :
    (Rollouts.mk m d).check T p = (Rollouts.mk n d).check T p := by
  simp only [check, if_neg (Nat.ne_of_gt hm), if_neg (Nat.ne_of_gt hn)]

theorem enter_congr {m n d : Nat} (hm : 0 < m) (hn : 0 < n) :
    (Rollouts.mk m d).enter T p = (Rollouts.mk n d).enter T p := by
  unfold enter
  rw [check_congr hm hn]

theorem enter_error {e : PlannerError} (h : b.check T p = .error e) : b.enter T p = .error e := by
  unfold enter
  rw [h]
  rfl

/-- **A search that is not refused begins if its paths have room.** -/
theorem enter_eq (h : b.check T p = .ok ()) :
    b.enter T p = if roomlessDepth ≤ b.maxDepth then .error .noRoom else .ok () := by
  unfold enter
  rw [h]
  rfl

theorem enter_ok (h : b.check T p = .ok ()) (hroom : b.maxDepth < roomlessDepth) : b.enter T p = .ok () :=
  (enter_eq h).trans (if_neg (Nat.not_le.2 hroom))

theorem enter_roomless (h : b.check T p = .ok ()) (hroom : roomlessDepth ≤ b.maxDepth) :
    b.enter T p = .error .noRoom :=
  (enter_eq h).trans (if_pos hroom)

theorem searchWith_ok (h : b.enter T p = .ok ()) :
    ∃ r, b.searchWith T R p = .ok (b.report ((b.made T R p).foldl Progress.note .start), r) := by
  have hs : b.searchWith T R p = .ok (b.report (run T R p b.maxDepth b.maxSimulations T.start R.start .start).1,
      (run T R p b.maxDepth b.maxSimulations T.start R.start .start).2) := by
    unfold searchWith
    rw [h]
    rfl
  rw [run_eq] at hs
  exact ⟨_, hs⟩

theorem searchWith_error {e : PlannerError} (h : b.enter T p = .error e) : b.searchWith T R p = .error e := by
  unfold searchWith
  rw [h]
  rfl

theorem check_of_searchWith {x : Report × R.Memory} (h : b.searchWith T R p = .ok x) : b.check T p = .ok () := by
  cases hc : b.check T p with
  | ok u => rfl
  | error e =>
    rw [searchWith_error (enter_error hc)] at h
    cases h

theorem searchWith_eq_error_iff {e : PlannerError} : b.searchWith T R p = .error e ↔ b.enter T p = .error e := by
  cases h : b.enter T p with
  | error e' => simp [searchWith_error h]
  | ok u =>
    obtain ⟨r, hr⟩ := searchWith_ok (R := R) h
    simp [hr]

theorem improvement_le {rs : List Rollout} (h : Tracks rs q) {e : Nat × Nat} (he : e ∈ q.stats.improvements) :
    e.1 ≤ q.stats.simulations := by
  obtain ⟨i, x, hx, hi, -⟩ := (h.mem_iff e.1 e.2).1 he
  rw [hi, h.simulations_eq]
  exact hx.lt_length

theorem Continues.improvements_eq {rs : List Rollout} (h : Continues q q') (ht : Tracks rs q) :
    q.stats.improvements = q'.stats.improvements.filter (fun e => decide (e.1 ≤ q.stats.simulations)) := by
  obtain ⟨later, himp, hlater⟩ := h.improvements
  rw [himp, List.filter_append, List.filter_eq_self.2 fun e he => decide_eq_true (improvement_le ht he),
    List.filter_eq_nil_iff.2 fun e he => by simpa using hlater e he, List.append_nil]

/-- **A larger budget extends a smaller one**: the same refusals, and otherwise the rollouts of the smaller budget,
accounted for in the same way, and then others that can only shorten the plan.  Where the paths of so many steps have no
room, neither search begins. -/
theorem searchWith_budget {m n d : Nat} (hT : T.NeverFires) (hd : 0 < d) (hm : 0 < m) (hmn : m ≤ n) :
    (∀ e, (Rollouts.mk m d).searchWith T R p = .error e ↔ (Rollouts.mk n d).searchWith T R p = .error e) ∧
    ((∀ f ∈ p.requirements, f.supported = true) → T.timeLimit ≠ some .zero →
      roomlessDepth ≤ d ∧ (Rollouts.mk m d).searchWith T R p = .error .noRoom ∧
        (Rollouts.mk n d).searchWith T R p = .error .noRoom ∨
      d < roomlessDepth ∧ ∃ short long r r', (Rollouts.mk m d).searchWith T R p = .ok (short, r) ∧
        (Rollouts.mk n d).searchWith T R p = .ok (long, r') ∧
        (Rollouts.mk m d).made T R p = ((Rollouts.mk n d).made T R p).take m ∧
        short.events <+: long.events ∧ short.stats.simulations = m ∧ long.stats.simulations = n ∧
        short.stats.improvements = long.stats.improvements.filter (fun e => decide (e.1 ≤ m)) ∧
        short.stats.successes ≤ long.stats.successes ∧ short.stats.deadEnds ≤ long.stats.deadEnds ∧
        short.stats.depthAborts ≤ long.stats.depthAborts ∧
        (long.stats.successes - short.stats.successes) + (long.stats.deadEnds - short.stats.deadEnds) +
          (long.stats.depthAborts - short.stats.depthAborts) = n - m ∧
        ∀ plan, short.plan = some plan → ∃ plan', long.plan = some plan' ∧ plan'.length ≤ plan.length) := by
  refine ⟨fun e => ?_, fun hsup hlim => ?_⟩
  · rw [searchWith_eq_error_iff, searchWith_eq_error_iff, enter_congr hm (Nat.lt_of_lt_of_le hm hmn)]
  have hcheck : (Rollouts.mk m d).check T p = .ok () :=
    check_eq_ok_iff.2 ⟨hsup, Nat.ne_of_gt hm, Nat.ne_of_gt hd, hlim⟩
  have hcheck' : (Rollouts.mk n d).check T p = .ok () :=
    check_eq_ok_iff.2 ⟨hsup, Nat.ne_of_gt (Nat.lt_of_lt_of_le hm hmn), Nat.ne_of_gt hd, hlim⟩
  rcases Nat.lt_or_ge d roomlessDepth with hroom | hroom
  case inr =>
    exact .inl ⟨hroom, searchWith_error (enter_roomless hcheck hroom), searchWith_error (enter_roomless hcheck' hroom)⟩
  obtain ⟨r, hshort⟩ := searchWith_ok (R := R) (enter_ok hcheck hroom)
  obtain ⟨r', hlong⟩ := searchWith_ok (R := R) (enter_ok hcheck' hroom)
  have htake : (Rollouts.mk m d).made T R p = ((Rollouts.mk n d).made T R p).take m :=
    (trail_take hmn d T.start R.start 0).symm
  refine .inr ⟨hroom, _, _, r, r', hshort, hlong, htake, ?_⟩
  obtain ⟨hlen, hends⟩ := made_spent (b := ⟨n, d⟩) (R := R) (p := p) hT
  rw [htake]
  generalize (Rollouts.mk n d).made T R p = ys at *
  have hm : m ≤ ys.length := hlen ▸ hmn
  have ht := tracks_start.foldl (ys.take m)
  have hsim : ((ys.take m).foldl Progress.note .start).stats.simulations = m :=
    ht.simulations_eq.trans (List.length_take_of_le hm)
  have hcont := Continues.of_take ys m
  refine ⟨List.reverse_prefix.2 hcont.events, hsim, (tracks_start.foldl ys).simulations_eq.trans hlen,
    (hcont.improvements_eq ht).trans (by rw [hsim]; rfl), count_take_le ys m .goal, count_take_le ys m .deadEnd,
    count_take_le ys m .depthLimit, (ends_take hends hm rfl rfl).trans (congrArg (· - m) hlen), fun plan hplan => ?_⟩
  obtain ⟨path, hpath, rfl⟩ := Option.map_eq_some_iff.1 hplan
  obtain ⟨path', hpath', hlength⟩ := hcont.best path hpath
  exact ⟨⟨path'⟩, Option.map_eq_some_iff.2 ⟨path', hpath', rfl⟩, hlength⟩

/-- Down a corridor of two steps the first rollout makes a detour; two more leave its improvement as it was and add a
second one. -/
theorem searchWith_budget_corridor : ∃ p short long r r', (Families.corridor 2).build = .ok p ∧
    (Rollouts.mk 1 6).searchWith .never (.cycle [0, 0, 0, 3000000000, 0, 3000000000, 0, 3000000000]) p =
      .ok (short, r) ∧
    (Rollouts.mk 3 6).searchWith .never (.cycle [0, 0, 0, 3000000000, 0, 3000000000, 0, 3000000000]) p =
      .ok (long, r') ∧
    short.stats.improvements = [(1, 4)] ∧ long.stats.improvements = [(1, 4), (2, 2)] ∧
    short.events <+: long.events := by
  obtain ⟨p, report, r, hb, hs, himp⟩ := exists_searchWith (b := ⟨3, 6⟩) (T := .never)
    (R := .cycle [0, 0, 0, 3000000000, 0, 3000000000, 0, 3000000000]) (d := Families.corridor 2)
    (fun report => report.stats.improvements == [(1, 4), (2, 2)]) (by decide +kernel)
  rw [beq_iff_eq] at himp
  obtain ⟨hsup, -, -, hlim⟩ := check_eq_ok_iff.1 (check_of_searchWith hs)
  obtain ⟨-, hreports⟩ := searchWith_budget (m := 1) (R := .cycle [0, 0, 0, 3000000000, 0, 3000000000, 0, 3000000000])
    Termination.neverFires_never (by decide : 0 < 6) (by decide) (by decide : 1 ≤ 3)
  obtain ⟨-, short, long, r, r', hshort, hlong, -, hevents, -, -, hfilter, -⟩ :=
    (hreports hsup hlim).resolve_left (fun h => absurd h.1 (by decide))
  obtain ⟨rfl, -⟩ := Prod.mk.inj (Except.ok.inj (hs.symm.trans hlong))
  rw [himp] at hfilter
  exact ⟨p, short, _, r, r', hb, hshort, hlong, hfilter, himp, hevents⟩

end Rollouts
end GroundPlanner
