import GroundPlanner.Config.Basic
import GroundPlanner.Proofs.Draft
/-!
# What a configuration that was accepted is good for

A planner is only made of settings that no engine refuses (`Planner.ofConfig_eq_ok_iff`).  So all that is left of the
checks of the engines is that of the requirements, and both refuse the same problems for the same reason
(`Accepted.check_astar`, `Accepted.check_rollouts`).
-/
namespace GroundPlanner

/-- A guard is passed exactly if its condition does not hold. -/
theorem ite_throw_eq_ok {ε α : Type} {c : Prop} [Decidable c] {e : ε} {f : PUnit → Except ε α} {a : α} :
    (if c then throw e >>= f else f ()) = .ok a ↔ ¬ c ∧ f () = .ok a := by
  by_cases hc : c
  · rw [if_pos hc]
    exact iff_of_false nofun (fun h => h.1 hc)
  · rw [if_neg hc]
    exact (and_iff_right hc).symm

theorem Duration.isZero_iff {t : Duration} : t.isZero = true ↔ t = .zero := by
  unfold Duration.isZero
  rw [beq_iff_eq]
  exact ⟨fun h => congrArg Duration.mk h, fun h => congrArg Duration.nanos h⟩

theorem Config.checked_eq_ok_iff {c : Config} {limit : Duration} : c.checked = .ok limit ↔
    AStar.validWeight c.weight = true ∧ c.timeLimit = .ok limit ∧ limit ≠ .zero ∧ c.maxSimulations ≠ 0 ∧
      c.maxDepth ≠ 0 := by
  simp only [checked, ite_throw_eq_ok, bind_eq_ok, Duration.isZero_iff, Bool.not_eq_true, Bool.not_eq_false']
  constructor
  · rintro ⟨hw, t, ht, hz, hs, hd, hlimit⟩
    cases hlimit
    exact ⟨hw, ht, hz, hs, hd⟩
  · rintro ⟨hw, ht, hz, hs, hd⟩
    exact ⟨hw, limit, ht, hz, hs, hd, rfl⟩

namespace Planner

/-- **The settings are good**: no engine refuses them. -/
structure Accepted (planner : Planner) : Prop where
  weight : AStar.validWeight planner.config.weight = true
  limit : planner.limit ≠ .zero
  simulations : planner.config.maxSimulations ≠ 0
  depth : planner.config.maxDepth ≠ 0

variable {planner : Planner} {c : Config}

theorem ofConfig_eq_ok_iff : ofConfig c = .ok planner ↔
    planner.config = c ∧ c.timeLimit = .ok planner.limit ∧ planner.Accepted := by
  have hchecked : ofConfig c = .ok planner ↔ planner.config = c ∧ c.checked = .ok planner.limit := by
    unfold ofConfig
    cases c.checked with
    | error e => exact iff_of_false nofun (fun h => nomatch h.2)
    | ok limit =>
      constructor
      · rintro ⟨⟩
        exact ⟨rfl, rfl⟩
      · rintro ⟨rfl, h⟩
        cases h
        rfl
  rw [hchecked, Config.checked_eq_ok_iff]
  constructor
  · rintro ⟨rfl, hw, ht, hz, hs, hd⟩
    exact ⟨rfl, ht, hw, hz, hs, hd⟩
  · rintro ⟨rfl, ht, h⟩
    exact ⟨rfl, h.weight, ht, h.limit, h.simulations, h.depth⟩

theorem Accepted.timeLimit_ne (h : planner.Accepted) : planner.termination.timeLimit ≠ some .zero :=
  fun hz => h.limit (Option.some.inj hz)

theorem bind_pure_unit {ε : Type} (x : Except ε Unit) : (x >>= fun _ => pure ()) = x := by
  cases x <;> rfl

/-- **Of accepted settings, A* refuses unsupported requirements only.** -/
theorem Accepted.check_astar (h : planner.Accepted) (p : Problem) :
    planner.astar.check planner.termination p = Problem.checkSupported p.requirements := by
  have hw : AStar.validWeight planner.astar.weight = true := h.weight
  simp only [AStar.check, hw, Bool.not_true, Bool.false_eq_true, if_false, if_neg h.timeLimit_ne]
  exact bind_pure_unit _

/-- **Of accepted settings, rollouts refuse unsupported requirements only.** -/
theorem Accepted.check_rollouts (h : planner.Accepted) (p : Problem) :
    planner.rollouts.check planner.termination p = Problem.checkSupported p.requirements := by
  have hs : ¬ planner.rollouts.maxSimulations = 0 := h.simulations
  have hd : ¬ planner.rollouts.maxDepth = 0 := h.depth
  simp only [Rollouts.check, if_neg hs, if_neg hd, if_neg h.timeLimit_ne]
  exact bind_pure_unit _

end Planner
end GroundPlanner
