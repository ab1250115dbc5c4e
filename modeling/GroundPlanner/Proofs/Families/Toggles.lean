import GroundPlanner.Proofs.AStar.Ending
import GroundPlanner.Proofs.Families.Board
import GroundPlanner.Proofs.Rollouts.Budget
/-!
# Bits to toggle, and a goal behind a key

Nothing provides the key, so a reachable state is a set of bits and no goal (`Families.toggles_not_goal`), and every
set of bits is reached (`Families.toggles_reached`).  That leaves both searches nothing to find, in a space that
doubles with each bit (`Families.toggles_defeat_searches`).
-/
namespace GroundPlanner
namespace Families

/-! ## Facts and actions -/

inductive ToggleFact where
  | bit (i : Nat)
  | key
  | goal
deriving DecidableEq

def ToggleFact.name : ToggleFact → String
  | .bit i => bitName i
  | .key => "key"
  | .goal => "goal"

theorem delimited_bitName : Text.Delimited bitName :=
  Text.delimited_ofNat.prepend "bit"

theorem ToggleFact.name_injective : Function.Injective ToggleFact.name := by
  refine Text.injective_of_head (fun
    | .bit _ => 'b'
    | .key => 'k'
    | .goal => 'g') (fun f => ?_) fun f f' hkind hname => ?_
  · cases f with
    | bit i => simp [name, bitName]
    | key => decide
    | goal => decide
  · cases f with
    | bit i =>
      cases f' with
      | bit i' => rw [delimited_bitName.injective hname]
      | _ => cases hkind
    | key =>
      cases f' with
      | key => rfl
      | _ => cases hkind
    | goal =>
      cases f' with
      | goal => rfl
      | _ => cases hkind

inductive ToggleAct where
  | unlock
  | set (i : Nat)
  | clear (i : Nat)

/-- The action of the draft; the lock asks for every bit. -/
def ToggleAct.draft (bits : Nat) : ToggleAct → ActionDraft
  | .unlock => { name := "open", pre := "key" :: (List.range bits).map bitName, add := ["goal"] }
  | .set i => { name := "set_" ++ bitName i, preNeg := [bitName i], add := [bitName i] }
  | .clear i => { name := "clear_" ++ bitName i, pre := [bitName i], del := [bitName i] }

theorem ToggleAct.name_injective (bits : Nat) : Function.Injective (fun act => (draft bits act).name) := by
  refine Text.injective_of_head (fun
    | .unlock => 'o'
    | .set _ => 's'
    | .clear _ => 'c') (fun act => ?_) fun act act' hkind hname => ?_
  · cases act with
    | unlock => simp [draft]
    | set i => simp [draft]
    | clear i => simp [draft]
  · cases act with
    | unlock =>
      cases act' with
      | unlock => rfl
      | _ => cases hkind
    | set i =>
      cases act' with
      | set i' => rw [(delimited_bitName.prepend "set_").injective hname]
      | _ => cases hkind
    | clear i =>
      cases act' with
      | clear i' => rw [(delimited_bitName.prepend "clear_").injective hname]
      | _ => cases hkind

def toggleActs (bits : Nat) : List ToggleAct :=
  .unlock :: (List.range bits).flatMap (fun i => [.set i, .clear i])

theorem toggle_actions (bits : Nat) : (toggleSpace bits).actions = (toggleActs bits).map (ToggleAct.draft bits) := by
  simp only [toggleSpace, toggleActs, List.map_cons, List.map_flatMap]
  rfl

theorem mem_toggleActs {bits : Nat} {act : ToggleAct} :
    act ∈ toggleActs bits ↔ act = .unlock ∨ ∃ i < bits, act = .set i ∨ act = .clear i := by
  simp [toggleActs]

theorem nodup_toggleActs (bits : Nat) : (toggleActs bits).Nodup := by
  refine List.nodup_cons.2 ⟨by simp, nodup_flatMap_of_key List.nodup_range (fun
    | .unlock => 0
    | .set i => i
    | .clear i => i) (by simp) (by simp)⟩

/-! ## The draft by kinds -/

def toggleFacts (bits : Nat) : List ToggleFact :=
  (List.range bits).map .bit ++ [.key, .goal]

theorem toggle_facts (bits : Nat) : (toggleSpace bits).facts = some ((toggleFacts bits).map ToggleFact.name) := by
  simp only [toggleSpace, toggleFacts, List.map_append, List.map_map]
  rfl

theorem mem_toggleFacts {bits : Nat} {f : ToggleFact} : f ∈ toggleFacts bits ↔ ∀ i, f = .bit i → i < bits := by
  cases f <;> simp [toggleFacts]

def ToggleAct.mentioned (bits : Nat) : ToggleAct → List ToggleFact
  | .unlock => .key :: (List.range bits).map .bit ++ [.goal]
  | .set i => [.bit i, .bit i]
  | .clear i => [.bit i, .bit i]

theorem ToggleAct.draft_mentioned (bits : Nat) (act : ToggleAct) :
    (act.draft bits).mentioned = (act.mentioned bits).map ToggleFact.name := by
  cases act with
  | unlock =>
    simp only [draft, mentioned, ActionDraft.mentioned, List.map_append, List.map_cons, List.map_map, List.append_nil,
      List.flatMap_nil]
    rfl
  | set i => rfl
  | clear i => rfl

theorem ToggleAct.mentioned_subset {bits : Nat} {act : ToggleAct} (hact : act ∈ toggleActs bits) :
    ∀ f ∈ act.mentioned bits, f ∈ toggleFacts bits := by
  intro f hf
  refine mem_toggleFacts.2 ?_
  rintro i rfl
  rcases mem_toggleActs.1 hact with rfl | ⟨j, hj, rfl | rfl⟩
  · simpa [mentioned] using hf
  · simp only [mentioned, List.mem_cons, ToggleFact.bit.injEq, List.not_mem_nil, or_false, or_self] at hf
    exact hf ▸ hj
  · simp only [mentioned, List.mem_cons, ToggleFact.bit.injEq, List.not_mem_nil, or_false, or_self] at hf
    exact hf ▸ hj

def toggleKinds (bits : Nat) : (toggleSpace bits).Kinds ToggleFact.name (ToggleAct.draft bits) where
  facts := toggleFacts bits
  init := []
  goal := [.goal]
  acts := toggleActs bits
  mentioned := ToggleAct.mentioned bits
  facts_eq := toggle_facts bits
  init_eq := rfl
  goal_eq := rfl
  goalNeg_eq := rfl
  actions_eq := toggle_actions bits
  mentioned_eq := ToggleAct.draft_mentioned bits
  init_subset := List.forall_mem_nil _
  goal_subset := by simp [mem_toggleFacts]
  mentioned_subset _ hact := ToggleAct.mentioned_subset hact
  nodup := nodup_toggleActs bits
  name_injective := ToggleAct.name_injective bits

/-! ## Reachable states -/

def ToggleFact.holds (on : Finset Nat) : ToggleFact → Bool
  | .bit i => decide (i ∈ on)
  | .key => false
  | .goal => false

/-- **The valuation shows the bits that are set**; there is neither key nor goal. -/
structure TogglesShown (bits : Nat) (v : Valuation) (on : Finset Nat) : Prop where
  subset : on ⊆ Finset.range bits
  holds : ∀ f : ToggleFact, v f.name = f.holds on

section Shown

variable {bits i : Nat} {v : Valuation} {on : Finset Nat}

theorem togglesShown_initial (bits : Nat) : TogglesShown bits (toggleSpace bits).initial ∅ where
  subset := Finset.empty_subset _
  holds f := by cases f <;> rfl

namespace TogglesShown

variable (h : TogglesShown bits v on)
include h

theorem not_goal : (toggleSpace bits).isGoal v = false := by
  have hgoal : v "goal" = false := h.holds .goal
  simp [Draft.isGoal, toggleSpace, hgoal]

theorem unlock_applicable : (ToggleAct.unlock.draft bits).applicable v = false := by
  have hkey : v "key" = false := h.holds .key
  simp [ActionDraft.applicable, ToggleAct.draft, hkey]

theorem set_applicable : ((ToggleAct.set i).draft bits).applicable v = !decide (i ∈ on) := by
  rw [ActionDraft.applicable_named h.holds [] [.bit i] rfl rfl]
  simp [ToggleFact.holds]

theorem clear_applicable : ((ToggleAct.clear i).draft bits).applicable v = decide (i ∈ on) := by
  rw [ActionDraft.applicable_named h.holds [.bit i] [] rfl rfl]
  simp [ToggleFact.holds]

theorem set_successor (hi : i < bits) :
    TogglesShown bits (((ToggleAct.set i).draft bits).successor v) (insert i on) where
  subset := Finset.insert_subset (Finset.mem_range.2 hi) h.subset
  holds f := by
    rw [ActionDraft.successor_named ToggleFact.name_injective rfl [.bit i] [] rfl rfl, h.holds]
    cases f <;> simp [ToggleFact.holds, Bool.or_comm]

theorem clear_successor : TogglesShown bits (((ToggleAct.clear i).draft bits).successor v) (on.erase i) where
  subset := (Finset.erase_subset i on).trans h.subset
  holds f := by
    rw [ActionDraft.successor_named ToggleFact.name_injective rfl [] [.bit i] rfl rfl, h.holds]
    cases f <;> simp [ToggleFact.holds, Bool.and_comm]

end TogglesShown
end Shown

section Reachable

variable {bits : Nat} {p : Problem} {t u : State} {on : Finset Nat}

theorem toggles_shown (hp : (toggleSpace bits).build = .ok p) (ht : p.Reachable t) :
    ∃ on, TogglesShown bits (p.holds t) on := by
  refine (Draft.build_described hp).reachable_holds (Draft.build_inTable hp)
    (I := fun v => ∃ on, TogglesShown bits v on) ⟨∅, togglesShown_initial bits⟩ ?_ ht
  rintro v ⟨on, hv⟩ a ha happ
  rw [toggle_actions] at ha
  obtain ⟨act, hact, rfl⟩ := List.mem_map.1 ha
  rcases mem_toggleActs.1 hact with rfl | ⟨i, hi, rfl | rfl⟩
  · rw [hv.unlock_applicable] at happ
    cases happ
  · exact ⟨_, hv.set_successor hi⟩
  · exact ⟨_, hv.clear_successor⟩

/-- **Every set of bits is reached**, by setting one after another. -/
theorem toggles_reached (hp : (toggleSpace bits).build = .ok p) (hon : on ⊆ Finset.range bits) :
    ∃ t, p.Reachable t ∧ TogglesShown bits (p.holds t) on := by
  have hdescribed := Draft.build_described hp
  induction on using Finset.induction_on with
  | empty => exact ⟨p.init, ⟨[], .nil _⟩, hdescribed.holds_init ▸ togglesShown_initial bits⟩
  | insert i on hout ih =>
    obtain ⟨hi, hon⟩ := Finset.insert_subset_iff.1 hon
    have hi := Finset.mem_range.1 hi
    obtain ⟨t, ht, hshown⟩ := ih hon
    have hmem : (ToggleAct.set i).draft bits ∈ (toggleSpace bits).actions := by
      rw [toggle_actions]
      exact List.mem_map_of_mem (mem_toggleActs.2 (.inr ⟨i, hi, .inl rfl⟩))
    have happ : ((ToggleAct.set i).draft bits).applicable (p.holds t) = true := by
      rw [hshown.set_applicable, decide_eq_false hout, Bool.not_false]
    obtain ⟨u, hu, hholds⟩ := hdescribed.exists_reachable (Draft.build_inTable hp) ht hmem happ
    exact ⟨u, hu, hholds ▸ hshown.set_successor hi⟩

/-- A state shows one set of bits, and of reachable states only one shows it. -/
theorem TogglesShown.eq {on' : Finset Nat} {v : Valuation} (h : TogglesShown bits v on)
    (h' : TogglesShown bits v on') : on = on' := by
  ext i
  have hbit := (h.holds (.bit i)).symm.trans (h'.holds (.bit i))
  simpa [ToggleFact.holds] using hbit

theorem TogglesShown.state_eq (hp : (toggleSpace bits).build = .ok p) (ht : p.Reachable t) (hu : p.Reachable u)
    (h : TogglesShown bits (p.holds t) on) (h' : TogglesShown bits (p.holds u) on) : t = u := by
  have htable := Draft.build_inTable hp
  refine (Draft.build_described hp).ext_holds (ht.words_eq.trans hu.words_eq.symm) (ht.lt_numFacts htable)
    (hu.lt_numFacts htable) fun n hn => ?_
  rw [Draft.declared, toggle_facts] at hn
  obtain ⟨f, -, rfl⟩ := List.mem_map.1 hn
  rw [h.holds, h'.holds]

/-- **There is one reachable state for each set of bits.** -/
theorem toggles_ncard (hp : (toggleSpace bits).build = .ok p) : {t | p.Reachable t}.ncard = 2 ^ bits := by
  choose! f hf using fun t (ht : p.Reachable t) => toggles_shown hp ht
  have hinj : Set.InjOn f {t | p.Reachable t} :=
    fun t ht u hu heq => TogglesShown.state_eq hp ht hu (hf t ht) (heq ▸ hf u hu)
  have himage : f '' {t | p.Reachable t} = ↑(Finset.range bits).powerset := by
    ext on
    rw [Set.mem_image, Finset.mem_coe, Finset.mem_powerset]
    constructor
    · rintro ⟨t, ht, rfl⟩
      exact (hf t ht).subset
    · intro hon
      obtain ⟨t, ht, hshown⟩ := toggles_reached hp hon
      exact ⟨t, ht, (hf t ht).eq hshown⟩
  rw [← hinj.ncard_image, himage, Set.ncard_coe_finset, Finset.card_powerset, Finset.card_range]

theorem toggles_not_goal (hp : (toggleSpace bits).build = .ok p) (ht : p.Reachable t) : p.isGoal t = false := by
  obtain ⟨on, hshown⟩ := toggles_shown hp ht
  rw [(Draft.build_described hp).isGoal_eq, hshown.not_goal]

/-- Without bits there is nothing to do, and with some bit there always is. -/
theorem toggles_options_iff (hp : (toggleSpace bits).build = .ok p) (ht : p.Reachable t) :
    p.options t = [] ↔ bits = 0 := by
  obtain ⟨on, hshown⟩ := toggles_shown hp ht
  rw [(Draft.build_described hp).options_eq_nil_iff, toggle_actions]
  constructor
  · intro hnone
    refine Nat.eq_zero_of_not_pos fun hpos => ?_
    have hset := hnone _ (List.mem_map_of_mem (mem_toggleActs.2 (.inr ⟨0, hpos, .inl rfl⟩)))
    have hclear := hnone _ (List.mem_map_of_mem (mem_toggleActs.2 (.inr ⟨0, hpos, .inr rfl⟩)))
    rw [hshown.set_applicable] at hset
    rw [hshown.clear_applicable] at hclear
    rw [hclear] at hset
    cases hset
  · rintro rfl a ha
    obtain ⟨act, hact, rfl⟩ := List.mem_map.1 ha
    rcases mem_toggleActs.1 hact with rfl | ⟨i, hi, -⟩
    · exact hshown.unlock_applicable
    · cases hi

end Reachable

/-! ## The searches -/

section Searches

variable {bits : Nat} {p : Problem} {T : Termination}

theorem toggles_supported (hp : (toggleSpace bits).build = .ok p) : ∀ f ∈ p.requirements, f.supported = true := by
  unfold Draft.build at hp
  obtain ⟨_, -, hp⟩ := bind_eq_ok.1 hp
  obtain ⟨_, -, hp⟩ := bind_eq_ok.1 hp
  obtain ⟨_, -, hp⟩ := bind_eq_ok.1 hp
  obtain ⟨_, -, hp⟩ := bind_eq_ok.1 hp
  cases hp
  exact List.forall_mem_singleton.2 rfl

/-- **Best-first search expands every set of bits once and finds nothing**, whatever its estimates. -/
theorem toggles_search (hp : (toggleSpace bits).build = .ok p) (a : AStar) (hT : T.NeverFires)
    (hlimit : T.timeLimit ≠ some .zero) (ha : AStar.validWeight a.weight = true) :
    ∃ r, a.search T p = .ok r ∧ r.outcome = .exhausted ∧ r.stats.explored = 2 ^ bits := by
  have hcheck : a.check T p = .ok () :=
    AStar.check_eq_ok_iff.2 ⟨Problem.checkSupported_eq_ok_iff.2 (toggles_supported hp), ha, hlimit⟩
  refine ⟨_, AStar.search_eq_ok_iff.2 ⟨hcheck, rfl⟩, ?_⟩
  obtain ⟨q, hv, -, hlast⟩ := a.ending_last_turn hT p
  change (a.ending T p).1 = .exhausted ∧ (a.ending T p).2.stats.explored = 2 ^ bits
  generalize (a.ending T p).1 = o at hlast
  generalize (a.ending T p).2 = f at hlast
  cases hlast with
  | exhausted hnil => exact ⟨rfl, (hv.explored_eq_ncard hnil).trans (toggles_ncard hp)⟩
  | goal hn _ _ hg =>
    have hno : p.isGoal _ = false := toggles_not_goal hp ⟨_, (hv.arena.pathTo hn).1⟩
    exact absurd (hno.symm.trans hg) Bool.false_ne_true

/-- How a rollout ends: at once if there are no bits, and else by its depth. -/
def toggleEnd (bits : Nat) : RolloutEnd :=
  if bits = 0 then .deadEnd else .depthLimit

/-- **Every rollout that time does not end ends in the same way.** -/
theorem toggles_ended (hp : (toggleSpace bits).build = .ok p) {depth : Nat} (hdepth : 0 < depth) {e : RolloutEnd}
    {path : List Nat} (h : Rollouts.Ended p depth p.init e path) (htime : e ≠ .timeLimit) :
    e = toggleEnd bits := by
  unfold toggleEnd
  cases h with
  | goal hw _ hg =>
    rw [toggles_not_goal hp ⟨_, hw.walk⟩] at hg
    cases hg
  | deadEnd hw _ _ hnone => rw [if_pos ((toggles_options_iff hp ⟨_, hw.walk⟩).1 hnone)]
  | depthLimit hw hlen =>
    cases hw with
    | nil => exact absurd hlen (Nat.ne_of_lt hdepth)
    | cons _ ha happ _ =>
      rw [if_neg fun hzero => ?_]
      have hnone := (toggles_options_iff hp ⟨[], .nil _⟩).2 hzero
      have hmem := Problem.mem_options.2 ⟨ha, happ⟩
      rw [hnone] at hmem
      cases hmem
  | timeLimit => exact absurd rfl htime

theorem toggles_check (hp : (toggleSpace bits).build = .ok p) {b : Rollouts} (hlimit : T.timeLimit ≠ some .zero)
    (hsim : 0 < b.maxSimulations) (hdepth : 0 < b.maxDepth) : b.check T p = .ok () :=
  Rollouts.check_eq_ok_iff.2 ⟨toggles_supported hp, Nat.ne_of_gt hsim, Nat.ne_of_gt hdepth, hlimit⟩

/-- **Rollouts find nothing**, whatever the random words. -/
theorem toggles_rollouts (hp : (toggleSpace bits).build = .ok p) {b : Rollouts} (R : RandomSource) (hT : T.NeverFires)
    (hcheck : b.check T p = .ok ()) (hdepth : 0 < b.maxDepth) (hroom : b.maxDepth < Rollouts.roomlessDepth) :
    ∃ report r, b.searchWith T R p = .ok (report, r) ∧ report.plan = none ∧
      report.stats.simulations = b.maxSimulations ∧ report.stats.successes = 0 ∧ report.stats.timeAborts = 0 ∧
      report.stats.deadEnds = (if bits = 0 then b.maxSimulations else 0) ∧
      report.stats.depthAborts = (if bits = 0 then 0 else b.maxSimulations) := by
  obtain ⟨r, hr⟩ := Rollouts.searchWith_ok (R := R) (Rollouts.enter_ok hcheck hroom)
  obtain ⟨hlen, htime⟩ := Rollouts.made_spent (b := b) (R := R) (p := p) hT
  have hends : ∀ x ∈ b.made T R p, x.finish = toggleEnd bits :=
    fun x hx => toggles_ended hp hdepth (Rollouts.trail_ended x hx) (htime x hx)
  have htracks : Rollouts.Tracks (b.made T R p) ((b.made T R p).foldl Rollouts.Progress.note .start) :=
    Rollouts.tracks_start.foldl _
  have hcount : ∀ e, ((b.made T R p).foldl Rollouts.Progress.note .start).stats.count e =
      if toggleEnd bits = e then b.maxSimulations else 0 := by
    intro e
    rw [Rollouts.count_final, ← hlen]
    split
    · rename_i he
      exact List.countP_eq_length.2 fun x hx => decide_eq_true ((hends x hx).trans he)
    · rename_i he
      exact List.countP_eq_zero.2 fun x hx hfinish => he ((hends x hx).symm.trans (of_decide_eq_true hfinish))
  have hplan : ((b.made T R p).foldl Rollouts.Progress.note .start).best = none := by
    refine Option.eq_none_iff_forall_ne_some.2 fun path hpath => ?_
    obtain ⟨i, hfirst, -⟩ := htracks.success path hpath
    have hgoal : RolloutEnd.goal = toggleEnd bits := hends _ hfirst.1.mem
    unfold toggleEnd at hgoal
    split at hgoal <;> cases hgoal
  refine ⟨_, r, hr, congrArg (Option.map Plan.mk) hplan, htracks.simulations_eq.trans hlen, (hcount .goal).trans ?_,
    (hcount .timeLimit).trans ?_, (hcount .deadEnd).trans ?_, (hcount .depthLimit).trans ?_⟩ <;>
    by_cases hbits : bits = 0 <;> simp [toggleEnd, hbits]

/-- **No search finds the goal behind the key**, for none of the reachable states, one for each set of bits, is a goal.
Best-first search expands each of them and is exhausted.  Of the rollouts none succeeds: without bits all are at a dead
end, and else all end by their depth.  Only for paths without room no rollout is made.  (A termination that has no time
at all is not one that never fires, and the searches refuse it.) -/
theorem toggles_defeat_searches (bits : Nat) : ∃ p, (toggleSpace bits).build = .ok p ∧
    (∀ t, p.Reachable t → p.isGoal t = false) ∧ {t | p.Reachable t}.ncard = 2 ^ bits ∧
    ∀ T : Termination, T.NeverFires → T.timeLimit ≠ some .zero →
      (∀ a : AStar, AStar.validWeight a.weight = true →
        ∃ r, a.search T p = .ok r ∧ r.outcome = .exhausted ∧ r.stats.explored = 2 ^ bits) ∧
      ∀ (b : Rollouts) (R : RandomSource), 0 < b.maxSimulations → 0 < b.maxDepth →
        (Rollouts.roomlessDepth ≤ b.maxDepth → b.searchWith T R p = .error .noRoom) ∧
        (b.maxDepth < Rollouts.roomlessDepth → ∃ report r, b.searchWith T R p = .ok (report, r) ∧
          report.plan = none ∧ report.stats.simulations = b.maxSimulations ∧
          report.stats.successes = 0 ∧ report.stats.timeAborts = 0 ∧
          report.stats.deadEnds = (if bits = 0 then b.maxSimulations else 0) ∧
          report.stats.depthAborts = if bits = 0 then 0 else b.maxSimulations) := by
  obtain ⟨p, hp⟩ := (toggleKinds bits).exists_build
  refine ⟨p, hp, fun t ht => toggles_not_goal hp ht, toggles_ncard hp, fun T hT hlimit => ⟨fun a ha => ?_, ?_⟩⟩
  · exact toggles_search hp a hT hlimit ha
  · intro b R hsim hdepth
    have hcheck : b.check T p = .ok () := toggles_check hp hlimit hsim hdepth
    exact ⟨fun hroom => Rollouts.searchWith_error (Rollouts.enter_roomless hcheck hroom),
      toggles_rollouts hp R hT hcheck hdepth⟩

/-- Two bits make four states; three rollouts of five steps toggle them in vain. -/
theorem toggles_defeat_searches_two : ∃ p, (toggleSpace 2).build = .ok p ∧ {t | p.Reachable t}.ncard = 4 ∧
    (∃ r, (AStar.mk .fastForward 1.0 true).search .never p = .ok r ∧ r.outcome = .exhausted ∧ r.stats.explored = 4) ∧
    ∃ report r, (Rollouts.mk 3 5).searchWith .never (.seeded 0) p = .ok (report, r) ∧ report.plan = none ∧
      report.stats.depthAborts = 3 := by
  obtain ⟨p, hp, -, hcard, hsearches⟩ := toggles_defeat_searches 2
  obtain ⟨hastar, hrollouts⟩ := hsearches .never Termination.neverFires_never nofun
  obtain ⟨-, hreport⟩ := hrollouts (Rollouts.mk 3 5) (.seeded 0) (by decide) (by decide)
  obtain ⟨report, r, hsearch, hplan, -, -, -, -, hdepth⟩ := hreport (by decide)
  exact ⟨p, hp, hcard, hastar (AStar.mk .fastForward 1.0 true) (by decide +kernel), report, r, hsearch, hplan, hdepth⟩

/-- **A rollout of `2^60` steps at most is not made**, although without bits it would be at a dead end at once. -/
theorem toggles_roomless : ∃ p, (toggleSpace 0).build = .ok p ∧ Termination.never.NeverFires ∧
    (Rollouts.mk 1 (2 ^ 60)).check .never p = .ok () ∧ p.options p.init = [] ∧
    (Rollouts.mk 1 (2 ^ 60)).searchWith .never (.seeded 0) p = .error .noRoom ∧
    ¬ ∃ report r, (Rollouts.mk 1 (2 ^ 60)).searchWith .never (.seeded 0) p = .ok (report, r) := by
  obtain ⟨p, hp⟩ := (toggleKinds 0).exists_build
  have hcheck : (Rollouts.mk 1 (2 ^ 60)).check .never p = .ok () := toggles_check hp nofun (by decide) (by decide)
  have hsearch : (Rollouts.mk 1 (2 ^ 60)).searchWith .never (.seeded 0) p = .error .noRoom :=
    Rollouts.searchWith_error (Rollouts.enter_roomless hcheck (by decide))
  refine ⟨p, hp, Termination.neverFires_never, hcheck, (toggles_options_iff hp ⟨[], .nil _⟩).2 rfl, hsearch, ?_⟩
  rintro ⟨report, r, hok⟩
  rw [hsearch] at hok
  cases hok

end Searches
end Families
end GroundPlanner
