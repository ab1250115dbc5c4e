import GroundPlanner.Problem.Families
import GroundPlanner.Proofs.AStar.Run
import Mathlib.Data.Set.Card
/-!
# What an outcome says of the problem

A plan that was found is valid and as long as the goal cost says (`search_succeeded_valid`).  A search that ran out of
open nodes has expanded every reachable state once, and none of them is a goal (`search_exhausted_complete`).  Neither
depends on the estimates, the weight, the suppression of duplicates or the termination.
-/
namespace GroundPlanner
namespace AStar

variable {a : AStar} {T : Termination} {p : Problem} {r : Report} {plan : Plan}

/-- Some search on a drafted problem gives a report, of which `P` holds, if running it says so. -/
theorem exists_search {d : Draft} (P : Problem → Report → Bool)
    (h : (match d.build with
      | .ok p => match a.search T p with
        | .ok r => P p r
        | .error _ => false
      | .error _ => false) = true) : ∃ p r, d.build = .ok p ∧ a.search T p = .ok r ∧ P p r = true := by
  split at h
  · rename_i p hb
    split at h
    · rename_i r hs
      exact ⟨p, r, hb, hs, h⟩
    · cases h
  · cases h

namespace Setup

variable {s : Setup} {q f : Progress}

theorem Finished.valid (hv : s.Valid q) (h : s.Finished q (.succeeded plan) f) :
    plan.validate s.problem = .ok () ∧ f.stats.goalCost = some plan.length := by
  cases h with
  | goal hn hpop hc hg =>
    obtain ⟨hw, hlen⟩ := hv.arena.pathTo hn
    exact ⟨Plan.validate_eq_ok_iff.2 ⟨_, hw, hg⟩, congrArg some hlen.symm⟩

end Setup

/-- **A plan that was found is valid, and its length is the goal cost.** -/
theorem search_succeeded_valid (h : a.search T p = .ok r) (ho : r.outcome = .succeeded plan) :
    plan.validate p = .ok () ∧ r.stats.goalCost = some plan.length := by
  obtain ⟨-, rfl⟩ := search_eq_ok_iff.1 h
  change (a.ending T p).1 = _ at ho
  obtain ⟨q, hv, hend⟩ := a.ending_valid T p
  rw [ho] at hend
  rcases hend with ⟨htimed, -⟩ | hfin
  · cases htimed
  · exact hfin.valid hv

/-- The lamp needs power first: the plan that is found goes there by two actions. -/
theorem search_succeeded_valid_lamp : ∃ p r plan, Families.conditionalLamp.build = .ok p ∧
    (AStar.mk .fastForward 2.0 true).search .never p = .ok r ∧ r.outcome = .succeeded plan ∧ plan.length = 2 ∧
    plan.validate p = .ok () ∧ r.stats.goalCost = some plan.length := by
  obtain ⟨p, r, hb, hs, ho⟩ := exists_search (a := AStar.mk .fastForward 2.0 true) (T := .never)
    (d := Families.conditionalLamp) (fun _ r => r.outcome = .succeeded ⟨[1, 0]⟩) (by decide +kernel)
  have ho : r.outcome = .succeeded ⟨[1, 0]⟩ := of_decide_eq_true ho
  exact ⟨p, r, ⟨[1, 0]⟩, hb, hs, ho, rfl, search_succeeded_valid hs ho⟩

namespace Setup

variable {s : Setup} {q : Progress}

theorem closed_of_covered {t : State} {c : Nat} (hnil : q.openList.entries = []) (h : q.Covered t c) :
    q.closed.contains t = true := by
  rcases h with hc | ⟨e, he, -⟩
  · exact hc
  · rw [hnil] at he
    cases he

/-- **With nothing left on the open list, the expanded states are the reachable ones.** -/
theorem Valid.expanded_iff (hv : s.Valid q) (hnil : q.openList.entries = []) (t : State) :
    t ∈ q.expanded.map Node.state ↔ s.problem.Reachable t := by
  rw [List.mem_map]
  constructor
  · rintro ⟨n, hn, rfl⟩
    exact hv.reachable_expanded hn
  · intro ht
    refine ht.induct (I := fun t => ∃ n ∈ q.expanded, n.state = t) ?_ ?_
    · exact (hv.history.closed_iff _).1 (closed_of_covered hnil hv.frontier.init)
    · rintro t x ⟨n, hn, rfl⟩ hx
      exact (hv.history.closed_iff _).1 (closed_of_covered hnil (hv.frontier.successors n hn x hx))

/-- **With nothing left on the open list, each reachable state was expanded once.** -/
theorem Valid.explored_eq_ncard (hv : s.Valid q) (hnil : q.openList.entries = []) :
    q.stats.explored = {t | s.problem.Reachable t}.ncard := by
  have hset : {t | s.problem.Reachable t} = ↑(q.expanded.map Node.state).toFinset := by
    ext t
    rw [Finset.mem_coe, List.mem_toFinset, hv.expanded_iff hnil]
    rfl
  rw [hset, Set.ncard_coe_finset, List.toFinset_card_of_nodup hv.history.distinct, List.length_map]
  exact hv.history.explored_eq

end Setup

/-- **A search that ran out of open nodes missed nothing**: no walk leads to a goal, and the states it expanded, each
of them once, are the reachable ones. -/
theorem search_exhausted_complete (h : a.search T p = .ok r) (ho : r.outcome = .exhausted) :
    (∀ is t, p.Walk p.init is t → p.isGoal t = false) ∧
    (a.expandedStates T p).Nodup ∧ (∀ t, t ∈ a.expandedStates T p ↔ p.Reachable t) ∧
    r.stats.explored = {t | p.Reachable t}.ncard := by
  obtain ⟨-, rfl⟩ := search_eq_ok_iff.1 h
  change (a.ending T p).1 = _ at ho
  change _ ∧ _ ∧ _ ∧ (a.ending T p).2.stats.explored = _
  obtain ⟨q, hv, hend⟩ := a.ending_valid T p
  unfold expandedStates
  rw [ho] at hend
  rcases hend with ⟨htimed, -⟩ | hfin
  · cases htimed
  · generalize (a.ending T p).2 = f at hfin
    cases hfin with
    | exhausted hnil =>
      have hiff : ∀ t, t ∈ (q.expanded.map Node.state).reverse ↔ p.Reachable t := fun t => by
        rw [List.mem_reverse]
        exact hv.expanded_iff hnil t
      have hnodup : (q.expanded.map Node.state).reverse.Nodup := List.nodup_reverse.2 hv.history.distinct
      refine ⟨fun is t hw => ?_, hnodup, hiff, hv.explored_eq_ncard hnil⟩
      obtain ⟨n, hn, rfl⟩ := List.mem_map.1 ((hv.expanded_iff hnil t).2 ⟨is, hw⟩)
      exact hv.history.not_goal n hn

/-- Two bits without the key to the goal: four states are reachable, none of them a goal. -/
theorem search_exhausted_complete_toggles : ∃ p r, (Families.toggleSpace 2).build = .ok p ∧
    (AStar.mk .max 1.0 true).search .never p = .ok r ∧ r.outcome = .exhausted ∧
    (∀ is t, p.Walk p.init is t → p.isGoal t = false) ∧ {t | p.Reachable t}.ncard = 4 := by
  obtain ⟨p, r, hb, hs, ho⟩ := exists_search (a := AStar.mk .max 1.0 true) (T := .never)
    (d := Families.toggleSpace 2) (fun _ r => r.outcome = .exhausted && r.stats.explored == 4) (by decide +kernel)
  simp only [Bool.and_eq_true, decide_eq_true_eq, beq_iff_eq] at ho
  obtain ⟨hw, -, -, hn⟩ := search_exhausted_complete hs ho.1
  exact ⟨p, r, hb, hs, ho.1, hw, hn ▸ ho.2⟩

end AStar
end GroundPlanner
