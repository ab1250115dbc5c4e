import GroundPlanner.Search.Frontier
import GroundPlanner.State
import Mathlib.Order.Compare
/-!
# Closed states and known costs

The order of states is lawful (equal places mean equal states), so a closed set holds exactly the states put into it
and the open costs of a state are those last recorded for it.
-/
namespace GroundPlanner

theorem State.compare_eq :
    (compare : State → State → Ordering) = compareLex (compareOn State.words) (compareOn State.bits) :=
  rfl

theorem State.ext_bits {s t : State} (hw : s.words = t.words) (hb : s.bits = t.bits) : s = t := by
  obtain ⟨w, b, h⟩ := s
  obtain ⟨w', b', h'⟩ := t
  obtain rfl : w = w' := hw
  obtain rfl : b = b' := hb
  rfl

instance : Std.TransOrd State := by
  unfold Std.TransOrd
  rw [State.compare_eq]
  infer_instance

instance : Std.LawfulEqOrd State where
  eq_of_compare {s t} h := by
    rw [State.compare_eq, compareLex, Ordering.then_eq_eq] at h
    simp only [compareOn, Nat.compare_eq_eq] at h
    exact State.ext_bits h.1 h.2

variable {α : Type} [Ord α] [Std.TransOrd α] [Std.LawfulEqOrd α]

namespace ClosedSet

omit [Std.TransOrd α] [Std.LawfulEqOrd α] in
theorem contains_empty (t : α) : (empty : ClosedSet α).contains t = false :=
  Std.TreeSet.contains_emptyc

theorem contains_insert {c : ClosedSet α} {s t : α} :
    (c.insert s).contains t = true ↔ t = s ∨ c.contains t = true := by
  unfold insert contains
  rw [Std.TreeSet.contains_insert, Bool.or_eq_true, beq_iff_eq, Std.LawfulEqCmp.compare_eq_iff_eq, eq_comm]

end ClosedSet

namespace OpenCosts

omit [Std.LawfulEqOrd α] in
theorem known?_empty (t : α) : (empty : OpenCosts α).known? t = none :=
  Std.TreeMap.getElem?_emptyc

omit [Std.TransOrd α] [Std.LawfulEqOrd α] in
/-- A refused offer changes nothing, and an offer at no greater cost was recorded. -/
theorem offer_refused {o o' : OpenCosts α} {s : α} {cost : Nat} (h : o.offer s cost = (false, o')) :
    o' = o ∧ ∃ known, o.known? s = some known ∧ known ≤ cost := by
  unfold offer at h
  split at h
  · rename_i known hk
    split at h
    · rename_i hle
      simp only [Prod.mk.injEq, true_and] at h
      exact ⟨h.symm, known, hk, hle⟩
    · simp at h
  · simp at h

/-- An accepted offer is recorded, and nothing else is. -/
theorem offer_accepted [DecidableEq α] {o o' : OpenCosts α} {s : α} {cost : Nat} (h : o.offer s cost = (true, o'))
    (t : α) : o'.known? t = if t = s then some cost else o.known? t := by
  have ho : o' = ⟨o.costs.insert s cost⟩ := by
    unfold offer at h
    split at h
    · split at h <;> simp_all
    · simp_all
  subst ho
  unfold known?
  change (o.costs.insert s cost)[t]? = _
  rw [Std.TreeMap.getElem?_insert]
  by_cases hts : t = s
  · subst hts
    simp
  · have hne : ¬ compare s t = .eq := fun hc => hts (Std.LawfulEqCmp.compare_eq_iff_eq.1 hc).symm
    rw [if_neg hne, if_neg hts]
    rfl

end OpenCosts
end GroundPlanner
