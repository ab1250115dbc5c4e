import GroundPlanner.Proofs.AStar.Counters
import GroundPlanner.Proofs.AStar.Outcome
import GroundPlanner.Proofs.Relaxation.Consistency
import GroundPlanner.Proofs.Search.Termination
/-!
# Searches that are never stopped

The reachable states of a built problem hold facts of its table only, so there are finitely many (`finite_reachable`).
A search that no termination stops expands each of them once at most, takes a node off the open list once for the root
and once for each generated node, and then ends: with a plan exactly if there is one (`search_never_stopped`).
-/
namespace GroundPlanner
namespace Problem

variable {p : Problem} {s : State}

theorem Reachable.lt_numFacts (hp : p.InTable) (h : p.Reachable s) : ∀ f, s.contains f = true → f < p.numFacts := by
  refine h.induct (I := fun s => ∀ f, s.contains f = true → f < p.numFacts) hp.init ?_
  rintro s ⟨i, t⟩ hs hx f hf
  obtain ⟨a, ha, -, rfl⟩ := mem_successors.1 hx
  rcases Action.contains_successor hf with hold | ⟨e, he, -, hadd⟩
  · exact hs f hold
  · exact ((hp.actions a (List.mem_of_getElem? ha)).2 e he).2.1 f hadd

/-- Reachable states have one width, so they are told apart by their bits. -/
theorem finite_reachable_of_bits {m : Nat} (h : ∀ t, p.Reachable t → t.bits < 2 ^ m) :
    {t | p.Reachable t}.Finite ∧ {t | p.Reachable t}.ncard ≤ 2 ^ m := by
  have hmaps : Set.MapsTo State.bits {t | p.Reachable t} ↑(Finset.range (2 ^ m)) :=
    fun t ht => Finset.mem_coe.2 (Finset.mem_range.2 (h t ht))
  have hinj : Set.InjOn State.bits {t | p.Reachable t} :=
    fun t ht u hu h => State.ext_bits (ht.words_eq.trans hu.words_eq.symm) h
  have hfin := (Finset.range (2 ^ m)).finite_toSet
  refine ⟨Set.Finite.of_injOn hmaps hinj hfin, ?_⟩
  calc {t | p.Reachable t}.ncard ≤ (↑(Finset.range (2 ^ m)) : Set Nat).ncard :=
        Set.ncard_le_ncard_of_injOn _ hmaps hinj hfin
    _ = 2 ^ m := by rw [Set.ncard_coe_finset, Finset.card_range]

/-- **The reachable states are at most as many as there are sets of facts.** -/
theorem finite_reachable (hp : p.InTable) :
    {t | p.Reachable t}.Finite ∧ {t | p.Reachable t}.ncard ≤ 2 ^ p.numFacts := by
  refine finite_reachable_of_bits (fun t ht => Nat.lt_pow_two_of_testBit _ (fun f hf => ?_))
  rw [← Bool.not_eq_true]
  exact fun hc => absurd (ht.lt_numFacts hp f hc) (Nat.not_lt.2 hf)

/-- Whatever its facts, a problem has finitely many reachable states. -/
theorem finite_setOf_reachable (p : Problem) : {t | p.Reachable t}.Finite := by
  refine (finite_reachable_of_bits (m := 64 * p.init.words) (fun t ht => ?_)).1
  have hlt := t.bits_lt
  rwa [Nat.one_shiftLeft, ht.words_eq] at hlt

theorem length_le_ncard_reachable {l : List State} (hd : l.Nodup) (hl : ∀ t ∈ l, p.Reachable t) :
    l.length ≤ {t | p.Reachable t}.ncard := by
  have hsub : ↑l.toFinset ⊆ {t | p.Reachable t} := fun t ht => hl t (List.mem_toFinset.1 (Finset.mem_coe.1 ht))
  have hle := Set.ncard_le_ncard hsub p.finite_setOf_reachable
  rwa [Set.ncard_coe_finset, List.toFinset_card_of_nodup hd] at hle

end Problem

namespace AStar
namespace Setup

variable {s : Setup} {T : Termination} {p q f : Progress} {o : SearchOutcome}

/-- **A search that is never stopped takes a last turn.** -/
theorem Ends.last_turn {I : Progress → Prop} (hT : T.NeverFires)
    (hstep : ∀ p q, I p → s.advance p = .more q → I q) {m : T.Memory} (h : s.Ends T m p o f) (ks : List Nat)
    (hm : m = T.asked ks) (hp : I p) : ∃ q, I q ∧ s.advance q = .done o f := by
  induction h generalizing ks with
  | @stopped _ _ p hs =>
    subst hm
    exact absurd hs (hT.check_ne ks _ _)
  | last _ ha => exact ⟨_, hp, ha⟩
  | turn hs ha _ ih =>
    subst hm
    exact ih (_ :: ks) (congrArg Prod.snd hs).symm (hstep _ _ hp ha)

/-- Each reachable state is expanded at most once. -/
theorem Valid.explored_le_reachable (hv : s.Valid p) : p.stats.explored ≤ {t | s.problem.Reachable t}.ncard := by
  have hle := Problem.length_le_ncard_reachable hv.history.distinct (p := s.problem) (fun t ht => ?_)
  · rwa [List.length_map, ← hv.history.explored_eq] at hle
  · obtain ⟨n, hn, rfl⟩ := List.mem_map.1 ht
    exact hv.reachable_expanded hn

/-- **A last turn finds a plan exactly if there is one.** -/
theorem Finished.succeeded_iff (hv : s.Valid p) (h : s.Finished p o f) :
    (o = .exhausted ∨ ∃ plan, o = .succeeded plan) ∧
    ((∃ plan, o = .succeeded plan) ↔ ∃ is t, s.problem.Walk s.problem.init is t ∧ s.problem.isGoal t = true) := by
  cases h with
  | exhausted hnil =>
    refine ⟨.inl rfl, ?_⟩
    constructor
    · rintro ⟨_, ⟨⟩⟩
    · rintro ⟨is, t, hw, hgoal⟩
      obtain ⟨n, hn, rfl⟩ := List.mem_map.1 ((hv.expanded_iff hnil t).2 ⟨is, hw⟩)
      rw [hv.history.not_goal n hn] at hgoal
      cases hgoal
  | goal hn _ _ hg =>
    exact ⟨.inr ⟨_, rfl⟩, ⟨fun _ => ⟨_, _, (hv.arena.pathTo hn).1, hg⟩, fun _ => ⟨_, rfl⟩⟩⟩

end Setup

variable {a : AStar} {T : Termination} {d : Draft} {p : Problem} {r : Report}

/-- The last turn of a search that is never stopped. -/
theorem ending_last_turn (a : AStar) (hT : T.NeverFires) (p : Problem) : ∃ q, (a.setup p).Valid q ∧
    (a.setup p).Balanced q ∧ (a.setup p).Finished q (a.ending T p).1 (a.ending T p).2 := by
  obtain ⟨q, ⟨hv, hbal⟩, hlast⟩ := (a.ending_ends T p).last_turn
    (I := fun q => (a.setup p).Valid q ∧ (a.setup p).Balanced q)
    hT (fun _ _ h hm => ⟨h.1.more hm, h.2.more h.1 hm⟩) [] rfl ⟨Setup.valid_start _, Setup.balanced_start _⟩
  exact ⟨q, hv, hbal, hv.queue.finished hlast⟩

theorem ending_ne_timedOut (a : AStar) (hT : T.NeverFires) (p : Problem) : (a.ending T p).1 ≠ .timedOut := by
  obtain ⟨q, hv, -, hend⟩ := a.ending_last_turn hT p
  intro ho
  rcases (hend.succeeded_iff hv).1 with hex | ⟨plan, hplan⟩
  · rw [ho] at hex
    cases hex
  · rw [ho] at hplan
    cases hplan

/-- **A search that is never stopped ends**, after one turn for the root and one for each action in each reachable state
at most, with a plan exactly if some walk leads to a goal. -/
theorem search_never_stopped (hb : d.build = .ok p) (hT : T.NeverFires) (hc : a.check T p = .ok ()) :
    {t | p.Reachable t}.Finite ∧ {t | p.Reachable t}.ncard ≤ 2 ^ p.numFacts ∧
    ∃ r, a.search T p = .ok r ∧
      r.stats.popped ≤ 1 + p.actions.length * {t | p.Reachable t}.ncard ∧
      (r.outcome = .exhausted ∨ ∃ plan, r.outcome = .succeeded plan) ∧
      ((∃ plan, r.outcome = .succeeded plan) ↔ ∃ is t, p.Walk p.init is t ∧ p.isGoal t = true) := by
  obtain ⟨hfin, hcard⟩ := Problem.finite_reachable (Draft.build_inTable hb)
  refine ⟨hfin, hcard, _, search_eq_ok_iff.2 ⟨hc, rfl⟩, ?_⟩
  obtain ⟨q, hv, hbal, hend⟩ := a.ending_last_turn hT p
  refine ⟨?_, hend.succeeded_iff hv⟩
  calc (a.ending T p).2.stats.popped ≤ q.stats.generated + 1 := hbal.popped_le hend
    _ ≤ p.actions.length * q.stats.explored + 1 := Nat.succ_le_succ (hbal.generated_le hv)
    _ ≤ p.actions.length * {t | p.Reachable t}.ncard + 1 :=
        Nat.succ_le_succ (Nat.mul_le_mul_left _ hv.explored_le_reachable)
    _ = 1 + p.actions.length * {t | p.Reachable t}.ncard := Nat.add_comm _ _

/-- Two bits without the key to the goal: the search ends after at most five turns for each reachable state and one
for the root, with nothing found, so no walk leads to the goal. -/
theorem search_never_stopped_toggles : ∃ p r, (Families.toggleSpace 2).build = .ok p ∧
    (AStar.mk .fastForward 1.0 false).search .never p = .ok r ∧ {t | p.Reachable t}.ncard ≤ 2 ^ p.numFacts ∧
    r.stats.popped ≤ 1 + p.actions.length * {t | p.Reachable t}.ncard ∧ r.outcome = .exhausted ∧
    ¬ ∃ is t, p.Walk p.init is t ∧ p.isGoal t = true := by
  obtain ⟨p, r, hb, hs, ho⟩ := exists_search (a := AStar.mk .fastForward 1.0 false) (T := .never)
    (d := Families.toggleSpace 2) (fun _ r => r.outcome = .exhausted) (by decide +kernel)
  have ho : r.outcome = .exhausted := of_decide_eq_true ho
  obtain ⟨-, hcard, r', hs', hpopped, -, hiff⟩ :=
    search_never_stopped hb Termination.neverFires_never (search_eq_ok_iff.1 hs).1
  obtain rfl : r = r' := Except.ok.inj (hs.symm.trans hs')
  refine ⟨p, r, hb, hs, hcard, hpopped, ho, fun hwalk => ?_⟩
  obtain ⟨plan, hplan⟩ := hiff.2 hwalk
  rw [ho] at hplan
  cases hplan

end AStar
end GroundPlanner
