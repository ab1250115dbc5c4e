/-!
# Ascending lists

`ascending l` holds the numbers of `l` once each, in increasing order: the canonical list of a finite set.
-/
namespace GroundPlanner

/-- Puts a number in its place in an ascending list, unless it is there already. -/
def insertAscending (x : Nat) : List Nat → List Nat
  | [] => [x]
  | y :: ys =>
    if x < y then x :: y :: ys
    else if x = y then y :: ys
    else y :: insertAscending x ys

def ascending (l : List Nat) : List Nat :=
  l.foldr insertAscending []

theorem mem_insertAscending {x y : Nat} {l : List Nat} : y ∈ insertAscending x l ↔ y = x ∨ y ∈ l := by
  induction l with
  | nil => simp [insertAscending]
  | cons z zs ih =>
    unfold insertAscending
    split
    · simp
    · split
      · rename_i h
        subst h
        simp
      · simp only [List.mem_cons, ih]
        grind

theorem mem_ascending {y : Nat} {l : List Nat} : y ∈ ascending l ↔ y ∈ l := by
  induction l with
  | nil => simp [ascending]
  | cons z zs ih =>
    simp only [ascending, List.foldr_cons, mem_insertAscending, List.mem_cons]
    rw [← ih, ascending]

theorem pairwise_insertAscending {x : Nat} {l : List Nat} (h : l.Pairwise (· < ·)) :
    (insertAscending x l).Pairwise (· < ·) := by
  induction l with
  | nil => simp [insertAscending]
  | cons z zs ih =>
    unfold insertAscending
    rw [List.pairwise_cons] at h
    split
    · rename_i hlt
      refine List.pairwise_cons.2 ⟨fun a ha => ?_, List.pairwise_cons.2 h⟩
      rcases List.mem_cons.1 ha with rfl | ha
      · exact hlt
      · exact Nat.lt_trans hlt (h.1 a ha)
    · split
      · exact List.pairwise_cons.2 h
      · refine List.pairwise_cons.2 ⟨fun a ha => ?_, ih h.2⟩
        rcases mem_insertAscending.1 ha with rfl | ha
        · omega
        · exact h.1 a ha

theorem pairwise_ascending (l : List Nat) : (ascending l).Pairwise (· < ·) := by
  induction l with
  | nil => simp [ascending]
  | cons z zs ih => exact pairwise_insertAscending ih

end GroundPlanner
