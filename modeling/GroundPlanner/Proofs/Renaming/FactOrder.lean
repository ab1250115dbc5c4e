import GroundPlanner.Problem.Families
import GroundPlanner.Proofs.AStar.Bisimilar
import GroundPlanner.Proofs.AStar.Outcome
import GroundPlanner.Proofs.Renaming.Draft
import GroundPlanner.Proofs.Renaming.Estimate
/-!
# Searches and the order of the facts

A draft with its facts in another order, and with others that it does not mention, gives a renamed problem.  The
searches do not tell the two apart (`Draft.searches_fact_order`): A* as long as the finite costs are in range, so that
their sums do not depend on the order of the facts, and rollouts in any case.
-/
namespace GroundPlanner

namespace Relaxation

variable {r : Relaxation} {s : State} {goal : Condition}

/-- Looks at all finite costs from a state. -/
def checkInRange (r : Relaxation) (s : State) (goal : Condition) : Bool :=
  let l := r.labels s
  let unreached := fun (fs : List FactId) => fs.any (fun f => l.cost f = .infinite)
  (List.range r.numFacts).all (fun f => l.cost f = .infinite || (l.cost f).inRange) &&
    (r.operators.all (fun o => unreached o.pre || (l.total r.kind o.pre).inRange) &&
      (unreached goal.positive || (r.estimate s goal).inRange))

theorem inRange_of_check (h : r.checkInRange s goal = true) : r.InRange s goal := by
  simp only [checkInRange, Bool.and_eq_true, Bool.or_eq_true, List.all_eq_true, List.mem_range, decide_eq_true_eq,
    List.any_eq_true] at h
  obtain ⟨hfacts, hoperators, hgoal⟩ := h
  refine ⟨fun f hf => ?_, fun o ho hpre => ?_, fun hpositive => ?_⟩
  · have hlt := Labels.lt_of_cost_ne_infinite hf
    rw [(r.labels_from s).2] at hlt
    exact (hfacts f hlt).resolve_left hf
  · exact (hoperators o ho).resolve_left (fun ⟨f, hf, hinf⟩ => hpre f hf hinf)
  · exact hgoal.resolve_left (fun ⟨f, hf, hinf⟩ => hpositive f hf hinf)

end Relaxation

namespace Draft

variable {d : Draft} {p : Problem} {names : List String}

/-- **Searches do not depend on the numbers of the facts**, nor on facts that are never mentioned. -/
theorem searches_fact_order (hb : d.build = .ok p) (hn : ∀ n ∈ d.mentions, n ∈ names) :
    ∃ q, { d with facts := some names }.build = .ok q ∧
      (∀ (a : AStar) (T : Termination), (∀ n ∈ (a.ending T p).2.nodes,
        (Relaxation.ofProblem a.heuristic p).InRange n.state p.goal) → a.search T q = a.search T p) ∧
      ∀ (b : Rollouts) (T : Termination) (Q : RandomSource), b.searchWith T Q q = b.searchWith T Q p := by
  obtain ⟨σ, q, hq, hr⟩ := build_renamed hb hn
  refine ⟨q, hq, fun a T hx => ?_, fun b T Q => Rollouts.searchWith_congr hr.bisimilar b T Q⟩
  refine AStar.search_congr hr.bisimilar a T (fun j n hj t ht => ?_)
  have hest := Relaxation.estimate_rename hr ht (hx n (Array.mem_of_getElem? hj))
  exact congrArg Cost.toFloat hest

/-- A gripper carries one ball.  With its facts in the opposite order, and one more in front, the search finds the same
plan in the same way. -/
theorem searches_fact_order_gripper : ∃ p q r, (Families.gripper 1).build = .ok p ∧
    { Families.gripper 1 with facts := some ("fuel" :: (Families.gripper 1).table.reverse) }.build = .ok q ∧
    p.factId? "robot_at_a" = some 0 ∧ q.factId? "robot_at_a" = some 8 ∧
    (∀ n ∈ ((AStar.mk .fastForward 1.0 false).ending .never p).2.nodes,
      (Relaxation.ofProblem .fastForward p).InRange n.state p.goal) ∧
    (AStar.mk .fastForward 1.0 false).search .never p = .ok r ∧ r.outcome = .succeeded ⟨[2, 0, 7]⟩ ∧
    (AStar.mk .fastForward 1.0 false).search .never q = .ok r := by
  obtain ⟨p, r, hb, hs, hr⟩ := AStar.exists_search (a := AStar.mk .fastForward 1.0 false) (T := .never)
    (d := Families.gripper 1) (fun p r => p.factId? "robot_at_a" = some 0 && (r.outcome = .succeeded ⟨[2, 0, 7]⟩ &&
      ((AStar.mk .fastForward 1.0 false).ending .never p).2.nodes.toList.all (fun n =>
        (Relaxation.ofProblem .fastForward p).checkInRange n.state p.goal))) (by decide +kernel)
  simp only [Bool.and_eq_true, decide_eq_true_eq, List.all_eq_true, Array.mem_toList_iff] at hr
  obtain ⟨hfirst, ho, hx⟩ := hr
  have hinRange : ∀ n ∈ ((AStar.mk .fastForward 1.0 false).ending .never p).2.nodes,
      (Relaxation.ofProblem .fastForward p).InRange n.state p.goal :=
    fun n hn => Relaxation.inRange_of_check (hx n hn)
  have hdeclared : ∀ n ∈ (Families.gripper 1).mentions, n ∈ "fuel" :: (Families.gripper 1).table.reverse := by
    decide +kernel
  obtain ⟨q, hq, hastar, -⟩ := searches_fact_order hb hdeclared
  have hlast :
      { Families.gripper 1 with facts := some ("fuel" :: (Families.gripper 1).table.reverse) }.build.toOption.bind
        (fun q => q.factId? "robot_at_a") = some 8 := by decide +kernel
  rw [hq] at hlast
  exact ⟨p, q, r, hb, hq, hfirst, hlast, hinRange, hs, ho, (hastar _ _ hinRange).trans hs⟩

end Draft
end GroundPlanner
