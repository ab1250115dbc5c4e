import GroundPlanner.Comparison.Run
import GroundPlanner.Problem.Families
import GroundPlanner.Proofs.AStar.Bound
import GroundPlanner.Proofs.Clocked
import GroundPlanner.Proofs.Config
/-!
# Both engines on one problem

The engines of an accepted planner refuse the same problems (`runWith_refused`).  On the others A* in time finds a plan
exactly if there is one, and the rollouts only find what is one (`runWith_searched`), so the rollouts are never the only
ones with a plan; and with the maximum as estimate and the weight one they never have the shorter one
(`runWith_agrees`).  That is, where rollouts have room for their paths; where they do not, there is nothing to compare
(`runWith_roomless`).
-/
namespace GroundPlanner

theorem SearchOutcome.eq_succeeded {o : SearchOutcome} {plan : Plan} (h : o.plan? = some plan) :
    o = .succeeded plan := by
  cases o with
  | succeeded plan' => exact congrArg succeeded (Option.some.inj h)
  | _ => cases h

namespace AStar

variable {a : AStar} {p : Problem} {d : Draft} {plan : Plan}

/-- **An unstopped search has a valid plan, or there is none.** -/
theorem ending_complete (a : AStar) (p : Problem) :
    (∀ plan, (a.ending .never p).1.plan? = some plan → plan.validate p = .ok ()) ∧
    ((a.ending .never p).1.plan? = none → ∀ is t, p.Walk p.init is t → p.isGoal t = false) := by
  obtain ⟨q, hv, -, hend⟩ := a.ending_last_turn Termination.neverFires_never p
  constructor
  · intro plan hplan
    rw [SearchOutcome.eq_succeeded hplan] at hend
    exact (hend.valid hv).1
  · intro hno is t hw
    rw [← Bool.not_eq_true]
    intro hg
    obtain ⟨plan, ho⟩ := (hend.succeeded_iff hv).2.2 ⟨is, t, hw, hg⟩
    rw [ho] at hno
    cases hno

theorem float_one : (1.0 : Float) = Float.ofNat 1 := by
  decide +kernel

/-- **With the maximum as estimate and the weight one a plan is no longer than a walk to a goal**, unless that is too
long for a double. -/
theorem ending_shortest (hb : d.build = .ok p) (hk : a.heuristic.kind = .max) (hw : a.weight = 1.0)
    (hplan : (a.ending .never p).1.plan? = some plan) {is : List Nat} {t : State} (hwalk : p.Walk p.init is t)
    (hgoal : p.isGoal t = true) (hlt : is.length < Cost.exactBound) : plan.length ≤ is.length := by
  have hpos : Double.Positive (Float.ofNat 1) := float_one ▸ positive_of_validWeight (by decide +kernel)
  have hc : (a.setup p).Consistent 1 := consistent_max hb hk (hw.trans float_one) hpos le_rfl
  have hle := ending_le_walk hc (SearchOutcome.eq_succeeded hplan) hwalk hgoal (by rwa [Nat.one_mul])
  rwa [Nat.one_mul] at hle

end AStar

namespace Comparison

variable {r : Comparison}

/-! ## The case analysis of a comparison -/

theorem winner_ne_only (h : r.astar.plan = none → r.rollouts.plan = none) : r.winner ≠ .only .rollouts := by
  unfold winner
  cases ha : r.astar.plan with
  | some a => cases r.rollouts.plan <;> nofun
  | none =>
    rw [h ha]
    nofun

theorem primaryPlan_eq (h : r.astar.plan = none → r.rollouts.plan = none) : r.primaryPlan = r.astar.plan := by
  unfold primaryPlan
  cases ha : r.astar.plan with
  | some a => rfl
  | none => exact h ha

theorem winner_ne_both (h : ∀ a b, r.astar.plan = some a → r.rollouts.plan = some b → a.length ≤ b.length)
    {length difference : Nat} {fastest : Engine} {time distance : Duration} :
    r.winner ≠ .both .rollouts length fastest time difference distance := by
  unfold winner
  cases ha : r.astar.plan with
  | none => cases r.rollouts.plan <;> nofun
  | some a =>
    cases hr : r.rollouts.plan with
    | none => nofun
    | some b =>
      simp only [if_pos (h a b ha hr)]
      nofun

/-! ## The rows of a comparison -/

variable {σ : Type} [Host (StateM σ)] {α : Type} {engine : Engine} {plan : α → Option Plan} {work : α → Nat}
  {search : StateM σ (Except PlannerError α)} {w : σ} {report : α} {e : PlannerError}

theorem engineRun_ok (h : (search.run (Host.look w).2).1 = .ok report) :
    ∃ row, ((engineRun engine plan work search).run w).1 = .ok row ∧ row.plan = plan report ∧ row.refusal = none := by
  unfold Host.look at h
  unfold engineRun
  rw [run_bind, run_bind, h]
  exact ⟨_, rfl, rfl, rfl⟩

/-- **An engine that refuses a problem has a row all the same.** -/
theorem engineRun_error (h : (search.run (Host.look w).2).1 = .error e) (he : e.isFatal = false) :
    ∃ row, ((engineRun engine plan work search).run w).1 = .ok row ∧ row.plan = none ∧
      row.refusal = some e.message := by
  unfold Host.look at h
  unfold engineRun
  rw [run_bind, run_bind, h]
  simp only [he]
  exact ⟨_, rfl, rfl, rfl⟩

/-- **An engine that fails for good has none.** -/
theorem engineRun_fatal (h : (search.run (Host.look w).2).1 = .error e) (he : e.isFatal = true) :
    ((engineRun engine plan work search).run w).1 = .error e := by
  unfold Host.look at h
  unfold engineRun
  rw [run_bind, run_bind, h]
  simp only [he]
  rfl

variable {settings : ComparisonSettings} {planner : Planner} {d : Draft} {p : Problem} {c : Config}

/-- The world in which the search with A* of a comparison begins. -/
def started (settings : ComparisonSettings) (p : Problem) (w : σ) : σ :=
  (Host.look (Host.after (opening settings p) w)).2

/-- **The time limit does not fire** in the search with A* of a comparison; that of the rollouts does not matter. -/
def InTime (settings : ComparisonSettings) (planner : Planner) (p : Problem) (w : σ) : Prop :=
  planner.InTime p (started settings p w)

/-- On a simulated host no time passes. -/
theorem inTime_simulation {s : Simulated} (hc : Planner.ofConfig c = .ok planner) : InTime settings planner p s := by
  obtain ⟨-, -, hp⟩ := Planner.ofConfig_eq_ok_iff.1 hc
  refine AStar.Setup.inTime_of_clock fun w => ?_
  change 0 < 0 + planner.limit.nanos
  rw [Nat.zero_add, Nat.pos_iff_ne_zero]
  exact fun hz => hp.limit (congrArg Duration.mk hz)

theorem isFatal_of_checkSupported {rs : List Requirement} (h : Problem.checkSupported rs = .error e) :
    e.isFatal = false := by
  unfold Problem.checkSupported at h
  split at h <;> cases h
  rfl

theorem astarRow_refused (hp : planner.Accepted) (h : Problem.checkSupported p.requirements = .error e) (w : σ) :
    ∃ row, ((astarRow planner p : StateM σ _).run w).1 = .ok row ∧ row.plan = none ∧ row.refusal = some e.message :=
  engineRun_error (Planner.runAStar_error ((hp.check_astar p).trans h)) (isFatal_of_checkSupported h)

/-- **In time, A* finds what an unstopped search finds.** -/
theorem astarRow_searched (hp : planner.Accepted) (h : Problem.checkSupported p.requirements = .ok ())
    (hin : planner.InTime p (Host.look w).2) : ∃ row, ((astarRow planner p : StateM σ _).run w).1 = .ok row ∧
      row.plan = (planner.astar.ending .never p).1.plan? ∧ row.refusal = none :=
  engineRun_ok (Planner.runAStar_ok ((hp.check_astar p).trans h) hin)

theorem rolloutsRow_refused (source : RandomSource) (hp : planner.Accepted)
    (h : Problem.checkSupported p.requirements = .error e) (w : σ) :
    ∃ row, ((rolloutsRow planner source p : StateM σ _).run w).1 = .ok row ∧ row.plan = none ∧
      row.refusal = some e.message :=
  engineRun_error (Planner.runRolloutsWith_error (Rollouts.enter_error ((hp.check_rollouts p).trans h)))
    (isFatal_of_checkSupported h)

/-- **Rollouts with room only find walks to a goal**, in time or not. -/
theorem rolloutsRow_searched (source : RandomSource) (hp : planner.Accepted)
    (h : Problem.checkSupported p.requirements = .ok ()) (hroom : planner.config.maxDepth < Rollouts.roomlessDepth)
    (w : σ) : ∃ row, ((rolloutsRow planner source p : StateM σ _).run w).1 = .ok row ∧ row.refusal = none ∧
      ∀ plan, row.plan = some plan → ∃ t, p.Walk p.init plan.steps t ∧ p.isGoal t = true := by
  obtain ⟨report, hreport, hwalk⟩ := Planner.runRolloutsWith_ok (R := source) (w := (Host.look w).2)
    (Rollouts.enter_ok ((hp.check_rollouts p).trans h) hroom)
  obtain ⟨row, hrow, hplan, hrefusal⟩ := engineRun_ok hreport
  exact ⟨row, hrow, hrefusal, fun plan hfound => hwalk plan (hplan.symm.trans hfound)⟩

theorem rolloutsRow_roomless (source : RandomSource) (hp : planner.Accepted)
    (h : Problem.checkSupported p.requirements = .ok ()) (hroom : Rollouts.roomlessDepth ≤ planner.config.maxDepth)
    (w : σ) : ((rolloutsRow planner source p : StateM σ _).run w).1 = .error .noRoom :=
  engineRun_fatal (Planner.runRolloutsWith_error (Rollouts.enter_roomless ((hp.check_rollouts p).trans h) hroom)) rfl

/-- **A comparison is its two rows**, and one that is missing ends it. -/
theorem runWith_rows (settings : ComparisonSettings) (planner : Planner) (source : RandomSource) (p : Problem)
    (w : σ) : ∃ w₁ w₂ : σ, (Host.look w₁).2 = started settings p w ∧
      ((runWith settings planner source p : StateM σ _).run w).1 = (do
        let astar ← ((astarRow planner p : StateM σ _).run w₁).1
        let rollouts ← ((rolloutsRow planner source p : StateM σ _).run w₂).1
        return ⟨settings.name, astar, rollouts⟩) := by
  refine ⟨Host.after (opening settings p) w,
    ((astarRow planner p : StateM σ _).run (Host.after (opening settings p) w)).2, rfl, ?_⟩
  unfold runWith
  simp only [run_bindExcept]
  rfl

/-- **Both engines refuse** a problem with unsupported requirements, with the same words. -/
theorem runWith_refused (settings : ComparisonSettings) (source : RandomSource) (hp : planner.Accepted)
    (h : Problem.checkSupported p.requirements = .error e) (w : σ) :
    ∃ r, ((runWith settings planner source p : StateM σ _).run w).1 = .ok r ∧
      r.astar.refusal = some e.message ∧ r.rollouts.refusal = some e.message := by
  obtain ⟨w₁, w₂, -, hrun⟩ := runWith_rows settings planner source p w
  obtain ⟨astar, hastar, -, hrefusal₁⟩ := astarRow_refused hp h w₁
  obtain ⟨rollouts, hrollouts, -, hrefusal₂⟩ := rolloutsRow_refused source hp h w₂
  rw [hastar, hrollouts] at hrun
  exact ⟨_, hrun, hrefusal₁, hrefusal₂⟩

/-- **What the rows of a comparison hold** after two searches: what an unstopped search with A* finds, and of the
rollouts a walk to a goal, if anything. -/
structure Searched (a : AStar) (p : Problem) (r : Comparison) : Prop where
  astar_plan : r.astar.plan = (a.ending .never p).1.plan?
  astar_refusal : r.astar.refusal = none
  rollouts_walk : ∀ plan, r.rollouts.plan = some plan → ∃ t, p.Walk p.init plan.steps t ∧ p.isGoal t = true
  rollouts_refusal : r.rollouts.refusal = none

/-- **With A* in time and room for the rollouts, a comparison has the rows of two searches.** -/
theorem runWith_searched (source : RandomSource) (hp : planner.Accepted)
    (h : Problem.checkSupported p.requirements = .ok ()) (hroom : planner.config.maxDepth < Rollouts.roomlessDepth)
    (hin : InTime settings planner p w) :
    ∃ r, ((runWith settings planner source p : StateM σ _).run w).1 = .ok r ∧ Searched planner.astar p r := by
  obtain ⟨w₁, w₂, hw, hrun⟩ := runWith_rows settings planner source p w
  obtain ⟨astar, hastar, hplan, hrefusal₁⟩ := astarRow_searched hp h (w := w₁) (hw ▸ hin)
  obtain ⟨rollouts, hrollouts, hrefusal₂, hwalk⟩ := rolloutsRow_searched source hp h hroom w₂
  rw [hastar, hrollouts] at hrun
  exact ⟨_, hrun, hplan, hrefusal₁, hwalk, hrefusal₂⟩

/-- **Rollouts without room end the comparison**, after A* had its row. -/
theorem runWith_roomless (source : RandomSource) (hp : planner.Accepted)
    (h : Problem.checkSupported p.requirements = .ok ()) (hroom : Rollouts.roomlessDepth ≤ planner.config.maxDepth)
    (hin : InTime settings planner p w) :
    ((runWith settings planner source p : StateM σ _).run w).1 = .error .noRoom := by
  obtain ⟨w₁, w₂, hw, hrun⟩ := runWith_rows settings planner source p w
  obtain ⟨astar, hastar, -⟩ := astarRow_searched hp h (w := w₁) (hw ▸ hin)
  rw [hastar, rolloutsRow_roomless source hp h hroom w₂] at hrun
  exact hrun

/-! ## What the rows tell together -/

namespace Searched

variable {a : AStar}

/-- A plan of the rollouts would be a walk to a goal, and then A* had found one. -/
theorem rollouts_plan_eq_none (h : Searched a p r) (hno : r.astar.plan = none) : r.rollouts.plan = none := by
  cases hr : r.rollouts.plan with
  | none => rfl
  | some plan =>
    obtain ⟨t, hw, hg⟩ := h.rollouts_walk plan hr
    rw [(a.ending_complete p).2 (h.astar_plan.symm.trans hno) _ t hw] at hg
    cases hg

/-- **The plan of a comparison is that of A***, valid, and missing only if there is none. -/
theorem primaryPlan_complete (h : Searched a p r) :
    (r.rollouts.plan.isSome = true → r.astar.plan.isSome = true) ∧ r.winner ≠ .only .rollouts ∧
    r.primaryPlan = r.astar.plan ∧ (∀ plan, r.primaryPlan = some plan → plan.validate p = .ok ()) ∧
    (r.primaryPlan = none → ∀ plan : Plan, plan.validate p ≠ .ok ()) := by
  obtain ⟨hvalid, hnone⟩ := a.ending_complete p
  rw [← h.astar_plan] at hvalid hnone
  rw [primaryPlan_eq h.rollouts_plan_eq_none]
  refine ⟨fun hsome => ?_, winner_ne_only h.rollouts_plan_eq_none, rfl, hvalid, fun hno plan hvalidated => ?_⟩
  · rw [Option.isSome_iff_ne_none] at hsome ⊢
    exact fun hno => hsome (h.rollouts_plan_eq_none hno)
  · obtain ⟨t, hw, hg⟩ := Plan.validate_eq_ok_iff.1 hvalidated
    rw [hnone hno _ t hw] at hg
    cases hg

/-- **The rollouts have no shorter plan** than A* with the maximum as estimate and the weight one. -/
theorem length_le (h : Searched a p r) (hb : d.build = .ok p) (hk : a.heuristic.kind = .max) (hweight : a.weight = 1.0)
    (hshort : ∀ plan, r.astar.plan = some plan → plan.length < 2 ^ 32) {x y : Plan} (hx : r.astar.plan = some x)
    (hy : r.rollouts.plan = some y) : x.length ≤ y.length := by
  obtain ⟨t, hw, hg⟩ := h.rollouts_walk y hy
  refine Nat.le_of_not_lt fun hlt => Nat.not_le_of_lt hlt ?_
  have hexact : y.steps.length < Cost.exactBound := Nat.lt_trans (Nat.lt_trans hlt (hshort x hx)) (by decide)
  exact AStar.ending_shortest hb hk hweight (h.astar_plan.symm.trans hx) hw hg hexact

end Searched

/-- **The engines never contradict each other**, if A* is in time.  Without room for the paths of the rollouts there is
no comparison.  Otherwise the engines refuse the same problems in the same words, and of the others the plan of the
comparison is that of A*, which is valid, missing only if there is no plan at all, and with the maximum as estimate and
the weight one no longer than that of the rollouts. -/
theorem runWith_agrees (source : RandomSource) (hb : d.build = .ok p) (hc : Planner.ofConfig c = .ok planner)
    (hin : InTime settings planner p w) :
    ((runWith settings planner source p : StateM σ _).run w).1 = .error .noRoom ∧
      (∀ f ∈ p.requirements, f.supported = true) ∧ Rollouts.roomlessDepth ≤ c.maxDepth ∨
    ∃ r, ((runWith settings planner source p : StateM σ _).run w).1 = .ok r ∧
      ((∃ f ∈ p.requirements, f.supported = false) ∨ c.maxDepth < Rollouts.roomlessDepth) ∧
      r.astar.refusal = r.rollouts.refusal ∧
      (r.astar.refusal.isSome = true ↔ ∃ f ∈ p.requirements, f.supported = false) ∧
      (r.astar.refusal = none →
        (r.rollouts.plan.isSome = true → r.astar.plan.isSome = true) ∧ r.winner ≠ .only .rollouts ∧
        r.primaryPlan = r.astar.plan ∧ (∀ plan, r.primaryPlan = some plan → plan.validate p = .ok ()) ∧
        (r.primaryPlan = none → ∀ plan : Plan, plan.validate p ≠ .ok ()) ∧
        (c.heuristic = .max ∨ c.heuristic = .setLevel → c.weight = 1.0 →
          (∀ plan, r.astar.plan = some plan → plan.length < 2 ^ 32) →
          ∀ length fastest time difference distance,
            r.winner ≠ .both .rollouts length fastest time difference distance)) := by
  obtain ⟨rfl, -, hp⟩ := Planner.ofConfig_eq_ok_iff.1 hc
  cases hsup : Problem.checkSupported p.requirements with
  | error e =>
    have hunsupported : ∃ f ∈ p.requirements, f.supported = false :=
      Problem.checkSupported_ne_ok_iff.1 (hsup ▸ nofun)
    obtain ⟨r, hrun, hrefusal₁, hrefusal₂⟩ := runWith_refused settings source hp hsup w
    refine .inr ⟨r, hrun, .inl hunsupported, ?_⟩
    rw [hrefusal₁, hrefusal₂]
    exact ⟨rfl, iff_of_true rfl hunsupported, nofun⟩
  | ok u =>
    have hsupported := Problem.checkSupported_eq_ok_iff.1 hsup
    rcases Nat.lt_or_ge planner.config.maxDepth Rollouts.roomlessDepth with hroom | hroom
    case inr => exact .inl ⟨runWith_roomless source hp hsup hroom hin, hsupported, hroom⟩
    obtain ⟨r, hrun, h⟩ := runWith_searched source hp hsup hroom hin
    refine .inr ⟨r, hrun, .inr hroom, h.astar_refusal.trans h.rollouts_refusal.symm, ?_, fun _ => ?_⟩
    · rw [h.astar_refusal, ← Problem.checkSupported_ne_ok_iff]
      exact iff_of_false nofun (fun hne => hne hsup)
    · obtain ⟨hsome, honly, hprimary, hvalid, hnone⟩ := h.primaryPlan_complete
      refine ⟨hsome, honly, hprimary, hvalid, hnone, fun hheuristic hweight hshort _ _ _ _ _ => ?_⟩
      have hkind : planner.astar.heuristic.kind = .max := by
        rcases hheuristic with h | h <;> exact congrArg HeuristicName.kind h
      exact winner_ne_both fun _ _ => h.length_le hb hkind hweight hshort

/-- Some comparison on a simulated host gives rows, of which `P` holds, if running it says so. -/
theorem exists_run (settings : ComparisonSettings) (P : Comparison → Bool)
    (h : (match d.build, Planner.ofConfig c with
      | .ok p, .ok planner => ((run settings planner p : Simulation _).run ⟨.empty, []⟩).1.toOption.any P
      | _, _ => false) = true) :
    ∃ p planner r s, d.build = .ok p ∧ Planner.ofConfig c = .ok planner ∧
      (run settings planner p : Simulation _).run ⟨.empty, []⟩ = (.ok r, s) ∧ P r = true := by
  split at h
  · rename_i p planner hb hc
    generalize hrun : (run settings planner p : Simulation _).run ⟨.empty, []⟩ = x at h
    obtain ⟨_ | r, s⟩ := x
    · cases h
    · exact ⟨p, planner, r, s, hb, hc, hrun, h⟩
  · cases h

/-- On the grid of two by two the third rollout makes a detour, and A* does not. -/
theorem runWith_agrees_grid : ∃ p planner r s, (Families.grid 2 2).build = .ok p ∧
    Planner.ofConfig { heuristic := .max, seed := some 9, maxSimulations := 3, maxDepth := 6 } = .ok planner ∧
    (run ⟨"grid", none, none⟩ planner p : Simulation _).run ⟨.empty, []⟩ = (.ok r, s) ∧
    r.rollouts.plan = some ⟨[2, 3, 2, 6]⟩ ∧ r.primaryPlan = some ⟨[0, 4]⟩ ∧
    (Plan.mk [0, 4]).validate p = .ok () ∧ r.winner ≠ .only .rollouts ∧
    ∀ length fastest time difference distance,
      r.winner ≠ .both .rollouts length fastest time difference distance := by
  obtain ⟨p, planner, r, s, hb, hc, hrun, hr⟩ := exists_run ⟨"grid", none, none⟩
    (d := Families.grid 2 2) (c := { heuristic := .max, seed := some 9, maxSimulations := 3, maxDepth := 6 })
    (fun r => r.astar.refusal = none && (r.rollouts.plan = some ⟨[2, 3, 2, 6]⟩ && r.primaryPlan = some ⟨[0, 4]⟩))
    (by decide +kernel)
  simp only [Bool.and_eq_true, decide_eq_true_eq] at hr
  obtain ⟨hrefusal, hrollouts, hprimary⟩ := hr
  have hfst : ((runWith ⟨"grid", none, none⟩ planner (.seeded planner.seed) p : Simulation _).run ⟨.empty, []⟩).1 =
      .ok r := congrArg Prod.fst hrun
  have hin : InTime ⟨"grid", none, none⟩ planner p (⟨.empty, []⟩ : Simulated) := inTime_simulation hc
  obtain ⟨hno, -⟩ | ⟨r', hrun', -, -, -, hagrees⟩ := runWith_agrees (.seeded planner.seed) hb hc hin
  · cases hfst.symm.trans hno
  obtain rfl : r = r' := Except.ok.inj (hfst.symm.trans hrun')
  obtain ⟨-, honly, hastar, hvalid, -, hshortest⟩ := hagrees hrefusal
  refine ⟨p, planner, r, s, hb, hc, hrun, hrollouts, hprimary, hvalid _ hprimary, honly, ?_⟩
  refine hshortest (.inl rfl) rfl fun plan hplan => ?_
  obtain rfl := Option.some.inj (hprimary.symm.trans (hastar.trans hplan))
  decide

/-- **An accepted configuration without room** for its rollouts: on a problem that both engines support there is no
comparison, although A* is in time. -/
theorem run_roomless_move : ∃ p planner, Families.moveAToB.build = .ok p ∧
    Planner.ofConfig { seed := some 7, maxSimulations := 5, maxDepth := 2 ^ 60 } = .ok planner ∧
    (∀ f ∈ p.requirements, f.supported = true) ∧
    InTime ⟨"roomless", none, none⟩ planner p (⟨.empty, []⟩ : Simulated) ∧
    ((run ⟨"roomless", none, none⟩ planner p : Simulation _).run ⟨.empty, []⟩).1 = .error .noRoom ∧
    ¬ ∃ r, ((run ⟨"roomless", none, none⟩ planner p : Simulation _).run ⟨.empty, []⟩).1 = .ok r := by
  obtain ⟨p, hb, hsupported⟩ := Draft.exists_build (d := Families.moveAToB)
    (fun p => p.requirements.all Requirement.supported) (by decide +kernel)
  rw [List.all_eq_true] at hsupported
  have hsup := Problem.checkSupported_eq_ok_iff.2 hsupported
  have hp : (Planner.mk { seed := some 7, maxSimulations := 5, maxDepth := 2 ^ 60 } Config.defaultLimit).Accepted :=
    ⟨by decide +kernel, by decide, by decide, by decide⟩
  have hc := Planner.ofConfig_eq_ok_iff.2 ⟨rfl, rfl, hp⟩
  have hin : InTime ⟨"roomless", none, none⟩ _ p (⟨.empty, []⟩ : Simulated) := inTime_simulation hc
  have hrun := runWith_roomless (.seeded 7) hp hsup (by decide) hin
  refine ⟨p, _, hb, hc, hsupported, hin, hrun, ?_⟩
  rintro ⟨r, hok⟩
  cases hrun.symm.trans hok

end Comparison
end GroundPlanner
