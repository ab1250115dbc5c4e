import GroundPlanner.Proofs.Search.Queue
import Mathlib.Order.Bounds.Basic
/-!
# The high water of an open list

An open list changes by pushes and pops (`Step`).  Along a course of changes `highWater` keeps the largest size that
the list had (`Course.isGreatest`), and never more than was pushed.
-/
namespace GroundPlanner
namespace OpenList

variable {α : Type} {l l' l'' : OpenList α} {ls ls' : List (OpenList α)}

/-- **How an open list changes**: an item is pushed or popped, or nothing happens to it. -/
inductive Step (l : OpenList α) : OpenList α → Prop where
  | same : Step l l
  | push (x : α) (f h : UInt64) : Step l (l.push x f h)
  | pop {e : OpenEntry α} {l' : OpenList α} (hpop : l.Popped e l') : Step l l'

/-- **An open list changes into those of `ls`**, one after another, the last of which is `l'`. -/
inductive Course : OpenList α → List (OpenList α) → OpenList α → Prop where
  | nil (l : OpenList α) : Course l [] l
  | cons {l l' l'' : OpenList α} {ls : List (OpenList α)} (h : Step l l') (hc : Course l' ls l'') :
    Course l (l' :: ls) l''

/-- **The levels of a sound list**: what is open, what was open at most, and what was pushed. -/
structure Levelled (l : OpenList α) : Prop where
  sound : l.Sound
  size_le : l.size ≤ l.highWater
  highWater_le : l.highWater ≤ l.pushed

theorem levelled_empty : (empty : OpenList α).Levelled :=
  ⟨sound_empty, Nat.le_refl _, Nat.le_refl _⟩

theorem Step.levelled (h : Step l l') (hl : l.Levelled) : l'.Levelled := by
  have hsize := hl.size_le
  have hpushed := hl.highWater_le
  cases h with
  | same => exact hl
  | push x f h =>
    refine ⟨hl.sound.push x f h, Nat.le_max_right _ _, Nat.max_le.2 ⟨?_, ?_⟩⟩
    · exact Nat.le_succ_of_le hpushed
    · exact Nat.succ_le_succ (Nat.le_trans hsize hpushed)
  | pop hpop =>
    have hpop_size := hpop.size_eq
    refine ⟨hpop.sound, ?_, ?_⟩
    · rw [hpop.highWater_eq]
      omega
    · rw [hpop.highWater_eq, hpop.pushed_eq]
      exact hpushed

/-- **The high water takes the new size in.** -/
theorem Step.highWater_eq (h : Step l l') (hl : l.Levelled) : l'.highWater = max l.highWater l'.entries.length := by
  have hsize := hl.size_le
  rw [← (h.levelled hl).sound.size_eq]
  cases h with
  | same => exact (Nat.max_eq_left hsize).symm
  | push => rfl
  | pop hpop =>
    have hpop_size := hpop.size_eq
    rw [hpop.highWater_eq]
    exact (Nat.max_eq_left (by omega)).symm

theorem Course.append (h : Course l ls l') (h' : Course l' ls' l'') : Course l (ls ++ ls') l'' := by
  induction h with
  | nil => exact h'
  | cons hs _ ih => exact .cons hs (ih h')

theorem Course.levelled (h : Course l ls l') (hl : l.Levelled) : l'.Levelled := by
  induction h with
  | nil => exact hl
  | cons hs _ ih => exact ih (hs.levelled hl)

/-- **Along a course the high water rises to the largest size**, if that is above it. -/
theorem Course.highWater (h : Course l ls l') (hl : l.Levelled) : l.highWater ≤ l'.highWater ∧
    (∀ k ∈ ls, k.entries.length ≤ l'.highWater) ∧
    (l'.highWater = l.highWater ∨ ∃ k ∈ ls, k.entries.length = l'.highWater) := by
  induction h with
  | nil => exact ⟨Nat.le_refl _, fun _ h => absurd h List.not_mem_nil, .inl rfl⟩
  | @cons l l₁ l' ls hs _ ih =>
    have hstep := hs.highWater_eq hl
    obtain ⟨hle, hall, hreached⟩ := ih (hs.levelled hl)
    refine ⟨by omega, List.forall_mem_cons.2 ⟨by omega, hall⟩, ?_⟩
    rcases hreached with heq | ⟨k, hk, hlen⟩
    · rcases Nat.le_total l₁.entries.length l.highWater with hlow | hhigh
      · exact .inl (by omega)
      · exact .inr ⟨l₁, List.mem_cons_self, by omega⟩
    · exact .inr ⟨k, List.mem_cons_of_mem _ hk, hlen⟩

/-- **The high water is the largest size on the way**, if it is at the beginning. -/
theorem Course.isGreatest (h : Course l ls l') (hl : l.Levelled) (hfull : l.highWater = l.entries.length) :
    IsGreatest {n | ∃ k ∈ l :: ls, k.entries.length = n} l'.highWater := by
  obtain ⟨hle, hall, hreached⟩ := h.highWater hl
  constructor
  · rcases hreached with heq | ⟨k, hk, hlen⟩
    · exact ⟨l, List.mem_cons_self, by omega⟩
    · exact ⟨k, List.mem_cons_of_mem _ hk, hlen⟩
  · rintro n ⟨k, hk, rfl⟩
    rcases List.mem_cons.1 hk with rfl | hk
    · omega
    · exact hall k hk

end OpenList
end GroundPlanner
