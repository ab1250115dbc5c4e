import GroundPlanner.Problem.Families
import GroundPlanner.Proofs.Draft
import GroundPlanner.Proofs.Rollouts.Approach
/-!
# The best rollout

A search by rollouts is its list of rollouts (`made`), accounted for one after another (`run_eq`).  What it has
accounted for so far it `Tracks`: the improvements are the successes shorter than all before them, and the best path is
that of the first shortest one.  One rollout more keeps that (`Tracks.note`), so the plan of a report is the path of the
first shortest success (`searchWith_first_shortest`), whatever the source of random words and the termination.
-/
namespace GroundPlanner
namespace Rollouts

/-- How a rollout ended, and the actions that it took. -/
structure Rollout where
  finish : RolloutEnd
  path : List Nat
deriving DecidableEq, Repr

/-- The rollouts of a search, at most `n`, after `done` others. -/
def trail (T : Termination) (R : RandomSource) (problem : Problem) (maxDepth : Nat) :
    Nat → T.Memory → R.Memory → Nat → List Rollout
  | 0, _, _, _ => []
  | n + 1, m, r, done =>
    match T.check m done with
    | (true, _) => []
    | (false, m) =>
      let w := walk T R problem done maxDepth m r problem.init []
      ⟨w.finish, w.path⟩ :: trail T R problem maxDepth n w.memory w.random (done + 1)

def made (b : Rollouts) (T : Termination) (R : RandomSource) (p : Problem) : List Rollout :=
  trail T R p b.maxDepth b.maxSimulations T.start R.start 0

/-- Number, end and depth of the rollout, if the event is one. -/
def Event.rollout? : Event → Option (Nat × RolloutEnd × Nat)
  | .rollout n finish depth => some (n, finish, depth)
  | _ => none

/-- **Rollout `i` is shorter than every success before it**, and a success itself. -/
def RecordAt (rs : List Rollout) (i : Nat) (x : Rollout) : Prop :=
  rs[i]? = some x ∧ x.finish = .goal ∧ ∀ y ∈ rs.take i, y.finish = .goal → x.path.length < y.path.length

/-- **Rollout `i` is the first of the shortest successes.** -/
def FirstShortest (rs : List Rollout) (i : Nat) (x : Rollout) : Prop :=
  RecordAt rs i x ∧ ∀ y ∈ rs, y.finish = .goal → x.path.length ≤ y.path.length

variable {T : Termination} {R : RandomSource} {b : Rollouts} {p : Problem} {rs : List Rollout} {x y : Rollout} {i : Nat}

/-! ## One rollout more -/

theorem RecordAt.lt_length (h : RecordAt rs i x) : i < rs.length :=
  (List.getElem?_eq_some_iff.1 h.1).1

theorem RecordAt.mem (h : RecordAt rs i x) : x ∈ rs :=
  List.mem_of_getElem? h.1

theorem recordAt_concat : RecordAt (rs ++ [y]) i x ↔
    RecordAt rs i x ∨ i = rs.length ∧ x = y ∧ y.finish = .goal ∧
      ∀ z ∈ rs, z.finish = .goal → y.path.length < z.path.length := by
  unfold RecordAt
  rcases Nat.lt_trichotomy i rs.length with hlt | rfl | hgt
  · rw [List.getElem?_append_left hlt, List.take_append_of_le_length (Nat.le_of_lt hlt)]
    exact ⟨.inl, fun h => h.resolve_right (fun h => absurd h.1 (Nat.ne_of_lt hlt))⟩
  · rw [List.getElem?_concat_length, List.take_left, List.getElem?_eq_none (Nat.le_refl _)]
    constructor
    · rintro ⟨⟨⟩, hg, hall⟩
      exact .inr ⟨rfl, rfl, hg, hall⟩
    · rintro (⟨⟨⟩, -⟩ | ⟨-, rfl, hg, hall⟩)
      exact ⟨rfl, hg, hall⟩
  · have hnone : (rs ++ [y])[i]? = none := by
      rw [List.getElem?_eq_none_iff, List.length_append, List.length_singleton]
      exact hgt
    rw [hnone, List.getElem?_eq_none (Nat.le_of_lt hgt)]
    constructor
    · rintro ⟨⟨⟩, -⟩
    · rintro (⟨⟨⟩, -⟩ | ⟨rfl, -⟩)
      exact absurd hgt (Nat.lt_irrefl _)

namespace Progress

def note (p : Progress) (x : Rollout) : Progress :=
  p.record x.finish x.path

theorem simulations_record (s : RolloutStats) (e : RolloutEnd) : (s.record e).simulations = s.simulations + 1 := by
  cases e <;> rfl

theorem improvements_record (s : RolloutStats) (e : RolloutEnd) : (s.record e).improvements = s.improvements := by
  cases e <;> rfl

theorem note_improved {p : Progress} (h : x.finish = .goal ∧ improves x.path p.best = true) :
    (p.note x).best = some x.path ∧
    (p.note x).stats = (p.stats.record x.finish).improve (p.stats.simulations + 1) x.path.length := by
  unfold note record
  simp only [if_pos h, simulations_record]
  split <;> exact ⟨rfl, rfl⟩

theorem note_counted {p : Progress} (h : ¬ (x.finish = .goal ∧ improves x.path p.best = true)) :
    (p.note x).best = p.best ∧ (p.note x).stats = p.stats.record x.finish := by
  unfold note record
  simp only [if_neg h]
  split <;> exact ⟨rfl, rfl⟩

theorem simulations_note (p : Progress) (x : Rollout) :
    (p.note x).stats.simulations = p.stats.simulations + 1 := by
  by_cases h : x.finish = .goal ∧ improves x.path p.best = true
  · rw [(note_improved h).2]
    exact simulations_record p.stats x.finish
  · rw [(note_counted h).2, simulations_record]

theorem logged_note (p : Progress) (x : Rollout) : (p.note x).events.filterMap Event.rollout? =
    (p.stats.simulations + 1, x.finish, x.path.length) :: p.events.filterMap Event.rollout? := by
  unfold note record
  simp only [simulations_record]
  split <;> split <;> rfl

end Progress

/-- **What a search has accounted for**, after the rollouts `rs`. -/
structure Tracks (rs : List Rollout) (p : Progress) : Prop where
  simulations_eq : p.stats.simulations = rs.length
  logged : p.events.filterMap Event.rollout? = (rs.mapIdx (fun i x => (i + 1, x.finish, x.path.length))).reverse
  sorted : p.stats.improvements.Pairwise (fun e e' => e.1 < e'.1 ∧ e'.2 < e.2)
  mem_iff : ∀ k l, (k, l) ∈ p.stats.improvements ↔ ∃ i x, RecordAt rs i x ∧ k = i + 1 ∧ l = x.path.length
  no_success : p.best = none → p.stats.improvements = [] ∧ ∀ x ∈ rs, x.finish ≠ .goal
  success : ∀ path, p.best = some path → ∃ i, FirstShortest rs i ⟨.goal, path⟩ ∧
    p.stats.improvements.getLast? = some (i + 1, path.length)

theorem tracks_start : Tracks [] .start where
  simulations_eq := rfl
  logged := rfl
  sorted := .nil
  mem_iff k l := ⟨fun h => absurd h List.not_mem_nil, fun ⟨_, _, h, _⟩ => absurd h.mem List.not_mem_nil⟩
  no_success _ := ⟨rfl, fun _ h => absurd h List.not_mem_nil⟩
  success _ h := by cases h

namespace Tracks

variable {q : Progress}

theorem logged_concat (h : Tracks rs q) (x : Rollout) : (q.note x).events.filterMap Event.rollout? =
    ((rs ++ [x]).mapIdx (fun i x => (i + 1, x.finish, x.path.length))).reverse := by
  rw [Progress.logged_note, h.logged, h.simulations_eq, List.mapIdx_concat, List.reverse_concat]

/-- **A path improves on the best one exactly if it is shorter than every success.** -/
theorem improves_iff (h : Tracks rs q) (path : List Nat) :
    improves path q.best = true ↔ ∀ y ∈ rs, y.finish = .goal → path.length < y.path.length := by
  cases hb : q.best with
  | none => exact ⟨fun _ y hy hg => absurd hg ((h.no_success hb).2 y hy), fun _ => rfl⟩
  | some best =>
    obtain ⟨i, hfirst, -⟩ := h.success best hb
    simp only [improves, decide_eq_true_eq]
    constructor
    · exact fun hlt y hy hg => Nat.lt_of_lt_of_le hlt (hfirst.2 y hy hg)
    · exact fun hall => hall _ hfirst.1.mem rfl

/-- A rollout that is no record leaves improvements and best path as they are. -/
theorem counted (h : Tracks rs q) (hx : ¬ (x.finish = .goal ∧ improves x.path q.best = true)) :
    Tracks (rs ++ [x]) (q.note x) := by
  obtain ⟨hbest, hstats⟩ := Progress.note_counted hx
  have himp : (q.note x).stats.improvements = q.stats.improvements := by
    rw [hstats, Progress.improvements_record]
  -- No record, since a success shorter than all before it would improve on the best path.
  have hrec : ∀ i y, RecordAt (rs ++ [x]) i y ↔ RecordAt rs i y := by
    intro i y
    rw [recordAt_concat]
    refine or_iff_left ?_
    rintro ⟨-, -, hg, hall⟩
    exact hx ⟨hg, (h.improves_iff x.path).2 hall⟩
  refine ⟨?_, h.logged_concat x, himp ▸ h.sorted, fun k l => ?_, fun hnone => ?_, fun path hsome => ?_⟩
  · rw [Progress.simulations_note, h.simulations_eq, List.length_append, List.length_singleton]
  · simp only [himp, hrec]
    exact h.mem_iff k l
  · rw [hbest] at hnone
    obtain ⟨hnil, hno⟩ := h.no_success hnone
    refine ⟨himp.trans hnil, fun y hy => ?_⟩
    rcases List.mem_append.1 hy with hy | hy
    · exact hno y hy
    · rw [List.mem_singleton.1 hy]
      exact fun hg => hx ⟨hg, by rw [hnone]; rfl⟩
  · rw [hbest] at hsome
    obtain ⟨i, ⟨hrecord, hleast⟩, hlast⟩ := h.success path hsome
    refine ⟨i, ⟨(hrec i _).2 hrecord, fun y hy hg => ?_⟩, himp ▸ hlast⟩
    rcases List.mem_append.1 hy with hy | hy
    · exact hleast y hy hg
    · rw [List.mem_singleton.1 hy] at hg ⊢
      refine Nat.not_lt.1 (fun hlt => hx ⟨hg, ?_⟩)
      rw [hsome]
      exact decide_eq_true hlt

/-- A record becomes the last improvement and the best path. -/
theorem improved (h : Tracks rs q) (hx : x.finish = .goal ∧ improves x.path q.best = true) :
    Tracks (rs ++ [x]) (q.note x) := by
  obtain ⟨hbest, hstats⟩ := Progress.note_improved hx
  have hshort := (h.improves_iff x.path).1 hx.2
  have himp : (q.note x).stats.improvements = q.stats.improvements ++ [(rs.length + 1, x.path.length)] := by
    rw [hstats, RolloutStats.improve, Progress.improvements_record, h.simulations_eq]
  have hnew : RecordAt (rs ++ [x]) rs.length x := recordAt_concat.2 (.inr ⟨rfl, rfl, hx.1, hshort⟩)
  refine ⟨?_, h.logged_concat x, ?_, fun k l => ?_, fun hnone => ?_, fun path hsome => ?_⟩
  · rw [Progress.simulations_note, h.simulations_eq, List.length_append, List.length_singleton]
  · rw [himp, List.pairwise_append]
    refine ⟨h.sorted, List.pairwise_singleton _ _, fun e he e' he' => ?_⟩
    obtain ⟨i, y, hy, hi, hl⟩ := (h.mem_iff e.1 e.2).1 he
    rw [List.mem_singleton.1 he', hi, hl]
    exact ⟨Nat.succ_lt_succ hy.lt_length, hshort y hy.mem hy.2.1⟩
  · rw [himp, List.mem_append, List.mem_singleton, Prod.mk.injEq, h.mem_iff]
    constructor
    · rintro (⟨i, y, hy, hk, hl⟩ | ⟨rfl, rfl⟩)
      · exact ⟨i, y, recordAt_concat.2 (.inl hy), hk, hl⟩
      · exact ⟨rs.length, x, hnew, rfl, rfl⟩
    · rintro ⟨i, y, hy, hk, hl⟩
      rcases recordAt_concat.1 hy with hy | ⟨rfl, rfl, -⟩
      · exact .inl ⟨i, y, hy, hk, hl⟩
      · exact .inr ⟨hk, hl⟩
  · rw [hbest] at hnone
    cases hnone
  · rw [hbest] at hsome
    obtain rfl := Option.some.inj hsome
    -- It beats every earlier success strictly, so it is the first of its length.
    have hgoal : (⟨.goal, x.path⟩ : Rollout) = x := by rw [← hx.1]
    refine ⟨rs.length, ⟨hgoal ▸ hnew, fun y hy hg => ?_⟩, by rw [himp, List.getLast?_concat]⟩
    rcases List.mem_append.1 hy with hy | hy
    · exact Nat.le_of_lt (hshort y hy hg)
    · exact Nat.le_of_eq (by rw [List.mem_singleton.1 hy])

/-- **One rollout more is accounted for.** -/
theorem note (h : Tracks rs q) (x : Rollout) : Tracks (rs ++ [x]) (q.note x) := by
  by_cases hx : x.finish = .goal ∧ improves x.path q.best = true
  · exact h.improved hx
  · exact h.counted hx

theorem foldl (h : Tracks rs q) (xs : List Rollout) : Tracks (rs ++ xs) (xs.foldl Progress.note q) := by
  induction xs generalizing rs q with
  | nil => exact (List.append_nil rs).symm ▸ h
  | cons x xs ih =>
    rw [List.append_cons]
    exact ih (h.note x)

end Tracks

/-! ## Whole searches -/

/-- **A search accounts for its rollouts one after another.** -/
theorem run_eq (maxDepth n : Nat) (m : T.Memory) (r : R.Memory) (q : Progress) :
    (run T R p maxDepth n m r q).1 = (trail T R p maxDepth n m r q.stats.simulations).foldl Progress.note q := by
  induction n generalizing m r q with
  | zero => rfl
  | succ n ih =>
    unfold run trail
    cases T.check m q.stats.simulations with
    | mk stop m' =>
      cases stop with
      | true => rfl
      | false =>
        simp only [List.foldl_cons]
        rw [ih, ← Progress.simulations_note q ⟨_, _⟩]
        rfl

theorem trail_ended {maxDepth n : Nat} {m : T.Memory} {r : R.Memory} {done : Nat} :
    ∀ x ∈ trail T R p maxDepth n m r done, Ended p maxDepth p.init x.finish x.path := by
  induction n generalizing m r done with
  | zero => exact fun _ h => absurd h List.not_mem_nil
  | succ n ih =>
    unfold trail
    split
    · exact fun _ h => absurd h List.not_mem_nil
    · intro x hx
      rcases List.mem_cons.1 hx with rfl | hx
      · obtain ⟨is, hpath, hend⟩ := walk_ended T R p done maxDepth _ r p.init []
        rw [List.reverse_nil, List.nil_append] at hpath
        exact hpath ▸ hend
      · exact ih x hx

variable {report : Report} {r : R.Memory}

theorem searchWith_eq_ok (h : b.searchWith T R p = .ok (report, r)) :
    report = b.report ((b.made T R p).foldl Progress.note .start) := by
  unfold searchWith at h
  obtain ⟨-, -, h⟩ := bind_eq_ok.1 h
  have hrun := run_eq (T := T) (R := R) (p := p) b.maxDepth b.maxSimulations T.start R.start .start
  obtain ⟨rfl, -⟩ := Prod.mk.inj (Except.ok.inj h)
  exact congrArg b.report hrun

/-- **The plan is the path of the first shortest success**, if there is any, and the improvements are the successes
that were shorter than all before them. -/
theorem searchWith_first_shortest (h : b.searchWith T R p = .ok (report, r)) :
    report.events.filterMap Event.rollout? =
      (b.made T R p).mapIdx (fun i x => (i + 1, x.finish, x.path.length)) ∧
    (report.plan = none ↔ ∀ x ∈ b.made T R p, x.finish ≠ .goal) ∧
    (∀ plan, report.plan = some plan → plan.validate p = .ok () ∧
      (∀ k < plan.length, ∃ t, p.Walk p.init (plan.steps.take k) t ∧ p.isGoal t = false) ∧
      plan.length < b.maxDepth ∧
      ∃ i, FirstShortest (b.made T R p) i ⟨.goal, plan.steps⟩ ∧
        report.stats.improvements.getLast? = some (i + 1, plan.length)) ∧
    report.stats.improvements.Pairwise (fun e e' => e.1 < e'.1 ∧ e'.2 < e.2) ∧
    (∀ k l, (k, l) ∈ report.stats.improvements ↔
      ∃ i x, RecordAt (b.made T R p) i x ∧ k = i + 1 ∧ l = x.path.length) ∧
    (report.stats.improvements = [] ↔ report.plan = none) := by
  have ht : Tracks (b.made T R p) ((b.made T R p).foldl Progress.note .start) := tracks_start.foldl _
  rw [searchWith_eq_ok h]
  generalize (b.made T R p).foldl Progress.note .start = final at ht
  have hnone : (b.report final).plan = none ↔ final.best = none := Option.map_eq_none_iff
  refine ⟨?_, ⟨fun hb => (ht.no_success (hnone.1 hb)).2, fun hno => ?_⟩, fun plan hplan => ?_, ht.sorted, ht.mem_iff,
    fun hnil => ?_, fun hb => (ht.no_success (hnone.1 hb)).1⟩
  · change final.events.reverse.filterMap _ = _
    rw [List.filterMap_reverse, ht.logged, List.reverse_reverse]
  · rw [hnone]
    cases hb : final.best with
    | none => rfl
    | some path =>
      obtain ⟨i, hfirst, -⟩ := ht.success path hb
      exact absurd rfl (hno _ hfirst.1.mem)
  · obtain ⟨path, hb, rfl⟩ := Option.map_eq_some_iff.1 hplan
    obtain ⟨i, hfirst, hlast⟩ := ht.success path hb
    have hend : Ended p b.maxDepth p.init .goal path := trail_ended _ hfirst.1.mem
    cases hend with
    | goal hw hlen hg =>
      exact ⟨Plan.validate_eq_ok_iff.2 ⟨_, hw.walk, hg⟩, fun k hk => hw.take hk, hlen, i, hfirst, hlast⟩
  · rw [hnone]
    cases hb : final.best with
    | none => rfl
    | some path =>
      obtain ⟨i, -, hlast⟩ := ht.success path hb
      have hnil : final.stats.improvements = [] := hnil
      rw [hnil] at hlast
      cases hlast

/-- Some search on a drafted problem gives a report, of which `P` holds, if running it says so. -/
theorem exists_searchWith {d : Draft} (P : Report → Bool)
    (h : (match d.build with
      | .ok p => match b.searchWith T R p with
        | .ok (report, _) => P report
        | .error _ => false
      | .error _ => false) = true) :
    ∃ p report r, d.build = .ok p ∧ b.searchWith T R p = .ok (report, r) ∧ P report = true := by
  split at h
  · rename_i p hb
    split at h
    · rename_i report r hs
      exact ⟨p, report, r, hb, hs, h⟩
    · cases h
  · cases h

/-- Down a corridor of two steps the first rollout turns back once, the second walks straight on, and the third is
no shorter: two improvements, and the plan of the second rollout. -/
theorem searchWith_first_shortest_corridor : ∃ p report r, (Families.corridor 2).build = .ok p ∧
    (Rollouts.mk 3 6).searchWith .never (.cycle [0, 0, 0, 3000000000, 0, 3000000000, 0, 3000000000]) p =
      .ok (report, r) ∧
    report.plan = some ⟨[0, 2]⟩ ∧ report.stats.improvements = [(1, 4), (2, 2)] ∧
    (Plan.mk [0, 2]).validate p = .ok () ∧
    FirstShortest ((Rollouts.mk 3 6).made .never (.cycle [0, 0, 0, 3000000000, 0, 3000000000, 0, 3000000000]) p) 1
      ⟨.goal, [0, 2]⟩ := by
  obtain ⟨p, report, r, hb, hs, hr⟩ := exists_searchWith (b := ⟨3, 6⟩) (T := .never)
    (R := .cycle [0, 0, 0, 3000000000, 0, 3000000000, 0, 3000000000]) (d := Families.corridor 2)
    (fun report => report.plan = some ⟨[0, 2]⟩ && report.stats.improvements == [(1, 4), (2, 2)]) (by decide +kernel)
  rw [Bool.and_eq_true, decide_eq_true_eq, beq_iff_eq] at hr
  obtain ⟨hplan, himp⟩ := hr
  obtain ⟨-, -, hsome, -⟩ := searchWith_first_shortest hs
  obtain ⟨hvalid, -, -, i, hfirst, hlast⟩ := hsome _ hplan
  rw [himp] at hlast
  cases hlast
  exact ⟨p, report, r, hb, hs, hplan, himp, hvalid, hfirst⟩

end Rollouts
end GroundPlanner
