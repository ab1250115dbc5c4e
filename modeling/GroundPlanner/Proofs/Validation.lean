import GroundPlanner.Problem.Families
import GroundPlanner.Proofs.Config
import GroundPlanner.Proofs.Faults
/-!
# What validation promises

Validation and the two engines refuse settings one after another, each in an order of its own.  What each would refuse is
a list of faults here (`Config.faults`, `AStar.faults`, `Rollouts.faults`), and the first of the list is what it
reports.  Validation goes through the faults of A* and then through those of rollouts, so it accepts the settings that
no engine refuses and reports what one of them does (`Config.validate_agrees`).

A time limit is the sum of its parts if there is such a duration.  If there is none, there is no answer either: not
even validation gives one, unless it stops at the weight before (`Config.validate_limits`).
-/
namespace GroundPlanner

/-- The fault of a setting that is refused under a condition. -/
def refuseIf (c : Prop) [Decidable c] (f : SettingFault) : List SettingFault :=
  if c then [f] else []

theorem faultOf_guard {ε α : Type} {c : Prop} [Decidable c] {e : ε} {f : PUnit → Except ε α} :
    faultOf (if c then throw e >>= f else f ()) = (if c then some e else none).or (faultOf (f ())) := by
  by_cases hc : c
  · rw [if_pos hc, if_pos hc]
    rfl
  · rw [if_neg hc, if_neg hc, Option.none_or]

theorem faultOf_lastGuard {ε : Type} {c : Prop} [Decidable c] {e : ε} :
    faultOf (if c then throw e else pure () : Except ε Unit) = if c then some e else none := by
  split <;> rfl

theorem faultOf_ok_bind {ε α β : Type} (a : α) (f : α → Except ε β) : faultOf (Except.ok a >>= f) = faultOf (f a) :=
  rfl

theorem faultOf_pure {ε α : Type} (a : α) : faultOf (pure a : Except ε α) = none :=
  rfl

theorem head?_refuseIf (c : Prop) [Decidable c] (f : SettingFault) :
    (refuseIf c f).head? = if c then some f else none := by
  unfold refuseIf
  split <;> rfl

/-! ## The faults in order -/

/-- What is wrong with the settings of a search, in the order in which it looks. -/
def AStar.faults (a : AStar) (T : Termination) : List SettingFault :=
  refuseIf (validWeight a.weight = false) (.weight a.weight) ++ refuseIf (T.timeLimit = some .zero) .timeout

def Rollouts.faults (b : Rollouts) (T : Termination) : List SettingFault :=
  refuseIf (b.maxSimulations = 0) .simulations ++ refuseIf (b.maxDepth = 0) .depth ++
    refuseIf (T.timeLimit = some .zero) .timeout

/-- What is wrong with a configuration of a given time limit, in the order of validation. -/
def Config.faults (c : Config) (limit : Duration) : List SettingFault :=
  refuseIf (AStar.validWeight c.weight = false) (.weight c.weight) ++ refuseIf (limit = .zero) .timeout ++
    refuseIf (c.maxSimulations = 0) .simulations ++ refuseIf (c.maxDepth = 0) .depth

/-- The first fault as a search reports it. -/
def reported (fs : List SettingFault) : Option PlannerError :=
  fs.head?.map (fun f => .configuration (.setting f))

theorem reported_append (fs gs : List SettingFault) : reported (fs ++ gs) = (reported fs).or (reported gs) := by
  rw [reported, List.head?_append, Option.map_or, reported, reported]

theorem reported_refuseIf (c : Prop) [Decidable c] (f : SettingFault) :
    reported (refuseIf c f) = if c then some (.configuration (.setting f)) else none := by
  rw [reported, head?_refuseIf]
  split <;> rfl

theorem reported_eq_some_iff {fs : List SettingFault} {cause : ConfigError} :
    reported fs = some (.configuration cause) ↔ fs.head?.map .setting = some cause := by
  cases fs <;> simp [reported]

section Checks

variable {c : Config} {limit : Duration} {a : AStar} {b : Rollouts} {T : Termination} {p : Problem}

theorem Config.faultOf_checked (h : c.timeLimit = .ok limit) : faultOf c.checked = (c.faults limit).head? := by
  simp only [checked, h, faultOf_guard, faultOf_ok_bind, faultOf_pure, faults, List.head?_append, head?_refuseIf,
    Duration.isZero_iff, Bool.not_eq_true', Option.or_assoc, Option.or_none]

/-- Without a time limit validation only gets to the weight. -/
theorem Config.faultOf_checked_of_error {e : SettingFault} (h : c.timeLimit = .error e) :
    faultOf c.checked = some (if AStar.validWeight c.weight then e else .weight c.weight) := by
  simp only [checked, h, faultOf_guard]
  cases AStar.validWeight c.weight <;> rfl

theorem Config.faultOf_validate (c : Config) : faultOf c.validate = (faultOf c.checked).map .setting := by
  unfold validate
  cases c.checked <;> rfl

theorem Planner.faultOf_ofConfig (c : Config) :
    faultOf (ofConfig c) = (faultOf c.validate).map .configuration := by
  unfold ofConfig Config.validate
  cases c.checked <;> rfl

theorem AStar.faultOf_search (a : AStar) (T : Termination) (p : Problem) : faultOf (a.search T p) =
    (faultOf (Problem.checkSupported p.requirements)).or (reported (a.faults T)) := by
  have hcheck : faultOf (a.search T p) = faultOf (a.check T p) := by
    unfold search
    cases a.check T p <;> rfl
  refine hcheck.trans (faultOf_bind fun _ _ => ?_)
  simp only [faultOf_guard, faultOf_lastGuard, faults, reported_append, reported_refuseIf, Bool.not_eq_true']

theorem Rollouts.faultOf_check (b : Rollouts) (T : Termination) (p : Problem) : faultOf (b.check T p) =
    (faultOf (Problem.checkSupported p.requirements)).or (reported (b.faults T)) := by
  refine faultOf_bind fun _ _ => ?_
  simp only [faultOf_guard, faultOf_lastGuard, faults, reported_append, reported_refuseIf, Option.or_assoc]

theorem Rollouts.faultOf_searchWith (b : Rollouts) (T : Termination) (R : RandomSource) (p : Problem) :
    faultOf (b.searchWith T R p) =
      (faultOf (b.check T p)).or (if roomlessDepth ≤ b.maxDepth then some .noRoom else none) := by
  have henter : faultOf (b.searchWith T R p) = faultOf (b.enter T p) := by
    unfold searchWith
    cases b.enter T p <;> rfl
  exact henter.trans (faultOf_bind fun _ _ => faultOf_lastGuard)

end Checks

/-! ## Time limits -/

/-- What the parts of a time limit come to, in nanoseconds; a part that is not set counts nothing. -/
def TimeLimits.nanos (l : TimeLimits) : Nat :=
  l.seconds.getD 0 * 1000000000 + l.millis.getD 0 * 1000000

theorem TimeLimits.total_eq (l : TimeLimits) : l.total =
    if l = {} then .ok none
    else if l.nanos ≤ Duration.longest.nanos then .ok (some ⟨l.nanos⟩)
    else .error .limitOverflow := by
  have hsum : (Duration.ofSeconds (l.seconds.getD 0)).add? (.ofMillis (l.millis.getD 0)) =
      if l.nanos ≤ Duration.longest.nanos then some ⟨l.nanos⟩ else none := rfl
  by_cases hunset : l = {}
  · rw [if_pos hunset, hunset]
    rfl
  · rw [if_neg hunset]
    unfold total
    split
    · rename_i hs hm
      refine absurd ?_ hunset
      cases l
      exact congrArg₂ TimeLimits.mk hs hm
    · rw [hsum]
      by_cases hle : l.nanos ≤ Duration.longest.nanos
      · simp only [hle, if_true]
      · simp only [hle, if_false]

/-- **A time limit is the sum of its parts, if there is such a duration.** -/
theorem Config.timeLimit_eq (c : Config) : c.timeLimit =
    if c.limits = {} then .ok defaultLimit
    else if c.limits.nanos ≤ Duration.longest.nanos then .ok ⟨c.limits.nanos⟩
    else .error .limitOverflow := by
  rw [timeLimit, TimeLimits.total_eq]
  split
  · rfl
  · split <;> rfl

theorem eq_of_mem_refuseIf {c : Prop} [Decidable c] {f g : SettingFault} (h : f ∈ refuseIf c g) : f = g := by
  unfold refuseIf at h
  split at h
  · exact List.mem_singleton.1 h
  · cases h

/-- The faults that a configuration with a time limit may have. -/
theorem Config.of_mem_faults {c : Config} {limit : Duration} {f : SettingFault} (h : f ∈ c.faults limit) :
    f = .weight c.weight ∨ f = .timeout ∨ f = .simulations ∨ f = .depth := by
  simp only [faults, List.mem_append] at h
  rcases h with ((h | h) | h) | h
  · exact .inl (eq_of_mem_refuseIf h)
  · exact .inr (.inl (eq_of_mem_refuseIf h))
  · exact .inr (.inr (.inl (eq_of_mem_refuseIf h)))
  · exact .inr (.inr (.inr (eq_of_mem_refuseIf h)))

/-- What validation finds first is what the planner reports. -/
theorem Config.refused_of_checked {c : Config} {fault : SettingFault} (h : faultOf c.checked = some fault) :
    c.validate = .error (.setting fault) ∧ Planner.ofConfig c = .error (.configuration (.setting fault)) := by
  rw [← faultOf_eq_some_iff, ← faultOf_eq_some_iff, Planner.faultOf_ofConfig, faultOf_validate, h]
  exact ⟨rfl, rfl⟩

theorem Config.accepted_of_checked {c : Config} (h : faultOf c.checked = none) :
    c.validate = .ok () ∧ ∃ planner, Planner.ofConfig c = .ok planner ∧ planner.config = c := by
  have hvalidate : faultOf c.validate = none := by rw [faultOf_validate, h, Option.map_none]
  have hplanner : faultOf (Planner.ofConfig c) = none := by rw [Planner.faultOf_ofConfig, hvalidate, Option.map_none]
  obtain ⟨u, hok⟩ := faultOf_eq_none_iff.1 hvalidate
  obtain ⟨planner, hplanner⟩ := faultOf_eq_none_iff.1 hplanner
  exact ⟨hok, planner, hplanner, (Planner.ofConfig_eq_ok_iff.1 hplanner).1⟩

/-- **A time limit is exact, and validation answers, wherever the parts have a sum.**  Where they have none, there is no
time limit, and validation and the planner only get as far as the weight. -/
theorem Config.validate_limits (c : Config) :
    (c.limits = {} → c.timeLimit = .ok defaultLimit) ∧
    (c.limits ≠ {} → c.limits.nanos ≤ Duration.longest.nanos → c.timeLimit = .ok ⟨c.limits.nanos⟩) ∧
    (c.limits.nanos ≤ Duration.longest.nanos →
      (c.validate = .ok () ∧ ∃ planner, Planner.ofConfig c = .ok planner ∧ planner.config = c) ∨
      ∃ fault, (fault = .weight c.weight ∨ fault = .timeout ∨ fault = .simulations ∨ fault = .depth) ∧
        c.validate = .error (.setting fault) ∧ Planner.ofConfig c = .error (.configuration (.setting fault))) ∧
    (Duration.longest.nanos < c.limits.nanos → c.timeLimit = .error .limitOverflow ∧
      ∃ fault, fault = (if AStar.validWeight c.weight then .limitOverflow else .weight c.weight) ∧
        c.validate = .error (.setting fault) ∧ Planner.ofConfig c = .error (.configuration (.setting fault))) := by
  have hlimit := c.timeLimit_eq
  refine ⟨fun hunset => ?_, fun hset hle => ?_, fun hle => ?_, fun hlt => ?_⟩
  · rw [hlimit, if_pos hunset]
  · rw [hlimit, if_neg hset, if_pos hle]
  · obtain ⟨limit, hok⟩ : ∃ limit, c.timeLimit = .ok limit := by
      rw [hlimit, if_pos hle]
      split <;> exact ⟨_, rfl⟩
    cases hf : (c.faults limit).head? with
    | none => exact .inl (accepted_of_checked ((faultOf_checked hok).trans hf))
    | some fault =>
      exact .inr ⟨fault, of_mem_faults (List.mem_of_head? hf), refused_of_checked ((faultOf_checked hok).trans hf)⟩
  · have hset : c.limits ≠ {} := by
      intro hunset
      rw [hunset] at hlt
      exact Nat.not_lt_zero _ hlt
    rw [if_neg hset, if_neg (Nat.not_le.2 hlt)] at hlimit
    exact ⟨hlimit, _, rfl, refused_of_checked (faultOf_checked_of_error hlimit)⟩

/-- The largest parts that a signed 64-bit number can tell have a sum, and the configuration is accepted. -/
theorem Config.validate_limits_signed :
    ({ limits := ⟨some 0x7fffffffffffffff, some 0x7fffffffffffffff⟩ } : Config).timeLimit =
      .ok (.ofParts 9232595408891630582 807000000) ∧
    ({ limits := ⟨some 0x7fffffffffffffff, some 0x7fffffffffffffff⟩ } : Config).validate = .ok () := by
  have hweight : AStar.validWeight 1.0 = true := by decide +kernel
  obtain ⟨-, hexact, hanswer, -⟩ :=
    validate_limits { limits := ⟨some 0x7fffffffffffffff, some 0x7fffffffffffffff⟩ }
  have hlimit := hexact (by decide) (by decide)
  refine ⟨hlimit, ?_⟩
  rcases hanswer (by decide) with ⟨hok, -⟩ | ⟨fault, -, herror, -⟩
  · exact hok
  · rw [← faultOf_eq_some_iff, faultOf_validate, faultOf_checked hlimit] at herror
    simp only [faults, hweight] at herror
    cases herror

/-- **The largest number of seconds and one more have no sum**: of a configuration with nothing else to refuse there is
then no time limit, and it is neither accepted nor refused for one of its settings. -/
theorem Config.validate_limits_overflow :
    ({ limits := ⟨some 0xffffffffffffffff, some 1000⟩ } : Config).timeLimit = .error .limitOverflow ∧
    ({ limits := ⟨some 0xffffffffffffffff, some 1000⟩ } : Config).validate = .error (.setting .limitOverflow) ∧
    Planner.ofConfig { limits := ⟨some 0xffffffffffffffff, some 1000⟩ } =
      .error (.configuration (.setting .limitOverflow)) := by
  have hweight : AStar.validWeight 1.0 = true := by decide +kernel
  have hlimit : ({ limits := ⟨some 0xffffffffffffffff, some 1000⟩ } : Config).timeLimit = .error .limitOverflow := by
    rw [timeLimit_eq]
    rfl
  have hchecked := faultOf_checked_of_error hlimit
  simp only [hweight, if_true] at hchecked
  exact ⟨hlimit, refused_of_checked hchecked⟩

/-! ## Validation and the engines -/

theorem refuseIf_congr {c c' : Prop} [Decidable c] [Decidable c'] (h : c ↔ c') (f : SettingFault) :
    refuseIf c f = refuseIf c' f := by
  simp only [refuseIf, h]

/-- **Validation goes through the faults of A* and then through those of rollouts**, but for the time limit, which it
looks at once and both engines do. -/
theorem Config.faults_eq (c : Config) (limit : Duration) : ∃ weight time budgets,
    c.faults limit = weight ++ time ++ budgets ∧
    (Planner.mk c limit).astar.faults (Planner.mk c limit).termination = weight ++ time ∧
    (Planner.mk c limit).rollouts.faults (Planner.mk c limit).termination = budgets ++ time := by
  have htime : refuseIf ((Planner.mk c limit).termination.timeLimit = some .zero) .timeout =
      refuseIf (limit = .zero) .timeout := refuseIf_congr Option.some_inj _
  refine ⟨refuseIf (AStar.validWeight c.weight = false) (.weight c.weight), refuseIf (limit = .zero) .timeout,
    refuseIf (c.maxSimulations = 0) .simulations ++ refuseIf (c.maxDepth = 0) .depth, ?_, ?_, ?_⟩
  · rw [faults, List.append_assoc]
  · rw [AStar.faults, htime]
    rfl
  · rw [Rollouts.faults, htime]
    rfl

theorem Config.faults_eq_nil_iff {c : Config} {limit : Duration} : c.faults limit = [] ↔
    (Planner.mk c limit).astar.faults (Planner.mk c limit).termination = [] ∧
      (Planner.mk c limit).rollouts.faults (Planner.mk c limit).termination = [] := by
  obtain ⟨weight, time, budgets, hfaults, hastar, hrollouts⟩ := c.faults_eq limit
  rw [hfaults, hastar, hrollouts]
  simp only [List.append_eq_nil_iff]
  constructor
  · rintro ⟨⟨hw, ht⟩, hb⟩
    exact ⟨⟨hw, ht⟩, hb, ht⟩
  · rintro ⟨⟨hw, ht⟩, hb, -⟩
    exact ⟨⟨hw, ht⟩, hb⟩

/-- The first fault of validation is the first of one of the engines. -/
theorem Config.head?_faults {c : Config} {limit : Duration} {f : SettingFault} (h : (c.faults limit).head? = some f) :
    ((Planner.mk c limit).astar.faults (Planner.mk c limit).termination).head? = some f ∨
      ((Planner.mk c limit).rollouts.faults (Planner.mk c limit).termination).head? = some f := by
  obtain ⟨weight, time, budgets, hfaults, hastar, hrollouts⟩ := c.faults_eq limit
  rw [hfaults, List.head?_append, Option.or_eq_some_iff] at h
  rw [hastar, hrollouts, List.head?_append (l := budgets)]
  rcases h with h | ⟨-, h⟩
  · exact .inl h
  · rw [h]
    exact .inr rfl

section Engines

variable {c : Config} {limit : Duration} {a : AStar} {b : Rollouts} {T : Termination} {R : RandomSource} {p : Problem}

theorem faultOf_checkSupported (h : ∀ r ∈ p.requirements, r.supported = true) :
    faultOf (Problem.checkSupported p.requirements) = none := by
  rw [Problem.checkSupported_eq_ok_iff.2 h]
  rfl

/-- **A problem with unsupported requirements is refused for them.** -/
theorem faultOf_checkSupported_of_unsupported (h : ∃ r ∈ p.requirements, r.supported = false) :
    faultOf (Problem.checkSupported p.requirements) = some (.unsupported (Requirement.offending p.requirements)) := by
  unfold Problem.checkSupported
  split
  · rename_i hnil
    obtain ⟨r, hr, hunsupported⟩ := h
    rw [Requirement.offending_eq_nil_iff.1 hnil r hr] at hunsupported
    cases hunsupported
  · rfl

/-- The refused requirements stand in the order of the flags. -/
theorem pairwise_offending (rs : List Requirement) : (Requirement.offending rs).Pairwise
    (fun r r' => Requirement.all.idxOf r < Requirement.all.idxOf r') := by
  have hall : Requirement.all.Pairwise (fun r r' => Requirement.all.idxOf r < Requirement.all.idxOf r') := by
    decide
  exact hall.sublist (List.filter_sublist.trans List.filter_sublist)

theorem AStar.search_eq_configuration_iff (h : ∀ r ∈ p.requirements, r.supported = true) {cause : ConfigError} :
    a.search T p = .error (.configuration cause) ↔ (a.faults T).head?.map .setting = some cause := by
  rw [← faultOf_eq_some_iff, faultOf_search, faultOf_checkSupported h, Option.none_or, reported_eq_some_iff]

theorem Rollouts.searchWith_eq_configuration_iff (h : ∀ r ∈ p.requirements, r.supported = true)
    {cause : ConfigError} :
    b.searchWith T R p = .error (.configuration cause) ↔ (b.faults T).head?.map .setting = some cause := by
  rw [← faultOf_eq_some_iff, faultOf_searchWith, faultOf_check, faultOf_checkSupported h, Option.none_or,
    Option.or_eq_some_iff, reported_eq_some_iff]
  refine or_iff_left fun hroom => ?_
  have := hroom.2
  split at this <;> cases this

theorem forall_head?_ne_iff {fs : List SettingFault} :
    (∀ cause, ¬ fs.head?.map ConfigError.setting = some cause) ↔ fs = [] := by
  cases fs <;> simp

theorem Config.validate_eq_ok_iff (h : c.timeLimit = .ok limit) : c.validate = .ok () ↔ c.faults limit = [] := by
  have hnone : c.validate = .ok () ↔ faultOf c.validate = none := by
    cases c.validate <;> simp [faultOf]
  rw [hnone, faultOf_validate, faultOf_checked h, Option.map_eq_none_iff, List.head?_eq_none_iff]

end Engines

/-- **Validation and the engines agree.**  A configuration with a time limit is accepted exactly if neither engine
refuses its settings, and it is refused with the words in which one of them refuses it.  A problem with unsupported
requirements is refused by both, whatever their settings, for these requirements: each once, in the order of the
flags. -/
theorem Config.validate_agrees (c : Config) (p : Problem) :
    ((∀ r ∈ p.requirements, r.supported = true) → ∀ limit, c.timeLimit = .ok limit → ∀ R : RandomSource,
      (c.validate = .ok () ↔
        (∀ cause, (Planner.mk c limit).astar.search (Planner.mk c limit).termination p ≠
          .error (.configuration cause)) ∧
        ∀ cause, (Planner.mk c limit).rollouts.searchWith (Planner.mk c limit).termination R p ≠
          .error (.configuration cause)) ∧
      ∀ cause, c.validate = .error cause → (PlannerError.configuration cause).message = cause.message ∧
        ((Planner.mk c limit).astar.search (Planner.mk c limit).termination p = .error (.configuration cause) ∨
          (Planner.mk c limit).rollouts.searchWith (Planner.mk c limit).termination R p =
            .error (.configuration cause))) ∧
    ((∃ r ∈ p.requirements, r.supported = false) → ∃ rs : List Requirement,
      (∀ r, r ∈ rs ↔ r ∈ p.requirements ∧ r.supported = false) ∧
      rs.Pairwise (fun r r' => Requirement.all.idxOf r < Requirement.all.idxOf r') ∧
      (∀ (a : AStar) T, a.search T p = .error (.unsupported rs)) ∧
      ∀ (b : Rollouts) T R, b.searchWith T R p = .error (.unsupported rs)) := by
  refine ⟨fun hsupported limit hlimit R => ⟨?_, fun cause hcause => ?_⟩, fun hunsupported => ?_⟩
  · simp only [ne_eq, AStar.search_eq_configuration_iff hsupported,
      Rollouts.searchWith_eq_configuration_iff hsupported, forall_head?_ne_iff]
    rw [validate_eq_ok_iff hlimit, faults_eq_nil_iff]
  · rw [← faultOf_eq_some_iff, faultOf_validate, faultOf_checked hlimit, Option.map_eq_some_iff] at hcause
    obtain ⟨f, hf, rfl⟩ := hcause
    rw [AStar.search_eq_configuration_iff hsupported, Rollouts.searchWith_eq_configuration_iff hsupported]
    exact ⟨rfl, (head?_faults hf).imp (congrArg (Option.map ConfigError.setting))
      (congrArg (Option.map ConfigError.setting))⟩
  · have hfault := faultOf_checkSupported_of_unsupported hunsupported
    refine ⟨_, fun r => Requirement.mem_offending.trans and_comm, pairwise_offending _, fun a T => ?_, fun b T R => ?_⟩
    · rw [← faultOf_eq_some_iff, AStar.faultOf_search, hfault, Option.some_or]
    · rw [← faultOf_eq_some_iff, Rollouts.faultOf_searchWith, Rollouts.faultOf_check, hfault, Option.some_or,
        Option.some_or]

/-- Empty budgets are refused by validation and by an engine in the same words; a durative move is refused by both
engines even so. -/
theorem Config.validate_agrees_move : ∃ p q, Families.moveAToB.build = .ok p ∧ Families.durativeMove.build = .ok q ∧
    ({ maxSimulations := 0, maxDepth := 0 } : Config).validate = .error (.setting .simulations) ∧
    (∀ R, (AStar.mk .fastForward 1.0 false).search (.afterTime defaultLimit) p =
        .error (.configuration (.setting .simulations)) ∨
      (Rollouts.mk 0 0).searchWith (.afterTime defaultLimit) R p = .error (.configuration (.setting .simulations))) ∧
    ∃ rs, .durativeActions ∈ rs ∧
      (AStar.mk .fastForward 1.0 false).search (.afterTime defaultLimit) q = .error (.unsupported rs) ∧
      ∀ R, (Rollouts.mk 0 0).searchWith (.afterTime defaultLimit) R q = .error (.unsupported rs) := by
  obtain ⟨p, hp, hsupported⟩ := Draft.exists_build (d := Families.moveAToB)
    (fun p => p.requirements.all Requirement.supported) (by decide +kernel)
  obtain ⟨q, hq, hdurative⟩ := Draft.exists_build (d := Families.durativeMove)
    (fun q => q.requirements.contains .durativeActions) (by decide +kernel)
  rw [List.all_eq_true] at hsupported
  rw [List.contains_iff_mem] at hdurative
  have hweight : AStar.validWeight 1.0 = true := by decide +kernel
  have hvalidate : ({ maxSimulations := 0, maxDepth := 0 } : Config).validate = .error (.setting .simulations) := by
    rw [← faultOf_eq_some_iff, faultOf_validate, faultOf_checked rfl]
    simp only [faults, hweight]
    rfl
  obtain ⟨rs, hrs, -, hastar, hrollouts⟩ := (validate_agrees {} q).2 ⟨_, hdurative, rfl⟩
  refine ⟨p, q, hp, hq, hvalidate, fun R => ?_, rs, (hrs _).2 ⟨hdurative, rfl⟩, hastar _ _, hrollouts _ _⟩
  exact (((validate_agrees { maxSimulations := 0, maxDepth := 0 } p).1 hsupported _ rfl R).2 _ hvalidate).2

end GroundPlanner
