import GroundPlanner.Proofs.Valuation
/-!
# Lengths of shortest plans

A distance counts actions to the goal: at zero there is a goal, one action takes off one at most, and where some are
left there is an action that takes off one (`Draft.Distance`).  Its value at the start is the length of the shortest plans
(`Draft.Distance.shortest`).
-/
namespace GroundPlanner

/-- Some valid plan has length `n`, and none is shorter. -/
structure Problem.Shortest (p : Problem) (n : Nat) : Prop where
  attained : ∃ plan : Plan, plan.validate p = .ok () ∧ plan.length = n
  least : ∀ plan : Plan, plan.validate p = .ok () → n ≤ plan.length

/-- **A distance to the goal**, known of some valuations that no action leaves. -/
structure Draft.Distance (d : Draft) (At : Valuation → Nat → Prop) : Prop where
  goal : ∀ v k, At v k → (d.isGoal v = true ↔ k = 0)
  step : ∀ v k a, At v k → a ∈ d.actions → a.applicable v = true → ∃ k', At (a.successor v) k' ∧ k ≤ k' + 1
  nearer : ∀ v k, At v (k + 1) → ∃ a ∈ d.actions, a.applicable v = true ∧ At (a.successor v) k

namespace Draft.Distance

variable {d : Draft} {p : Problem} {At : Valuation → Nat → Prop} {v w : Valuation} {is : List Nat} {k : Nat}

/-- No walk to a goal is shorter than the distance. -/
theorem le_length (h : d.Distance At) (hv : At v k) (hw : d.Walk v is w) (hgoal : d.isGoal w = true) :
    k ≤ is.length := by
  induction hw generalizing k with
  | nil v => exact Nat.le_of_eq ((h.goal v k hv).1 hgoal)
  | cons ha happ _ ih =>
    obtain ⟨k', hv', hle⟩ := h.step _ k _ hv (List.mem_of_getElem? ha) happ
    have hrest : k' ≤ _ := ih hv' hgoal
    exact Nat.le_trans hle (Nat.succ_le_succ hrest)

theorem exists_walk (h : d.Distance At) (hv : At v k) : ∃ is w, d.Walk v is w ∧ d.isGoal w = true ∧ is.length = k := by
  induction k generalizing v with
  | zero => exact ⟨[], v, .nil v, (h.goal v 0 hv).2 rfl, rfl⟩
  | succ k ih =>
    obtain ⟨a, ha, happ, hv'⟩ := h.nearer v k hv
    obtain ⟨i, hi⟩ := List.mem_iff_getElem?.1 ha
    obtain ⟨is, w, hw, hgoal, hlen⟩ := ih hv'
    exact ⟨i :: is, w, .cons hi happ hw, hgoal, congrArg (· + 1) hlen⟩

/-- **The distance of the start is the length of the shortest plans.** -/
theorem shortest (h : d.Distance At) (hp : d.build = .ok p) (hinit : At d.initial k) : p.Shortest k := by
  have hvalid {plan : Plan} : plan.validate p = .ok () ↔ _ := (build_described hp).validate_iff (build_inTable hp)
  constructor
  · obtain ⟨is, w, hw, hgoal, hlen⟩ := h.exists_walk hinit
    exact ⟨⟨is⟩, hvalid.2 ⟨w, hw, hgoal⟩, hlen⟩
  · intro plan hplan
    obtain ⟨w, hw, hgoal⟩ := hvalid.1 hplan
    exact h.le_length hinit hw hgoal

end Draft.Distance
end GroundPlanner
