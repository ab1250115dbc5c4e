import GroundPlanner.Heuristic.Cost
import GroundPlanner.Proofs.Double.Pattern
import Mathlib.Data.ENat.Lattice
/-!
# The order of relaxed costs

Costs are compared by their values among the numbers with infinity.  Rounding keeps the order (`value_rounded_mono`)
and costs that were rounded before (`Exact`), so a sum is no less than its parts (`value_le_add`) and grows with them
(`value_add_mono`).
-/
namespace GroundPlanner
namespace Cost

open Double

/-- A cost among the numbers with infinity. -/
def value : Cost → ℕ∞
  | finite n => n
  | infinite => ⊤

@[simp] theorem value_finite (n : Nat) : (finite n).value = n :=
  rfl

@[simp] theorem value_infinite : infinite.value = ⊤ :=
  rfl

@[simp] theorem value_zero : zero.value = 0 :=
  rfl

theorem value_injective {a b : Cost} (h : a.value = b.value) : a = b := by
  cases a <;> cases b <;> simp_all

theorem exists_eq_finite {c : Cost} (h : c.value ≠ ⊤) : ∃ n, c = finite n := by
  cases c with
  | finite n => exact ⟨n, rfl⟩
  | infinite => exact absurd rfl h

theorem lt_iff {a b : Cost} : a.lt b = true ↔ a.value < b.value := by
  cases a <;> cases b <;> simp [lt]

@[simp] theorem value_max (a b : Cost) : (a.max b).value = Max.max a.value b.value := by
  cases a with
  | infinite => exact (max_eq_left le_top).symm
  | finite m =>
    cases b with
    | infinite => exact (max_eq_right le_top).symm
    | finite n => exact Nat.mono_cast.map_max

/-! ## Rounding -/

/-- The nearest number with 53 significant bits. -/
def nearest (n : Nat) : Nat :=
  roundQuotient n (2 ^ lastPlace n) * 2 ^ lastPlace n

theorem nearest_of_lt {n : Nat} (h : n < exactBound) : nearest n = n := by
  have hplace : lastPlace n = 0 := by
    rcases Nat.eq_zero_or_pos n with rfl | hn
    · rfl
    · have hlog : n.log2 < 53 := (Nat.log2_lt (Nat.ne_of_gt hn)).2 h
      unfold lastPlace
      omega
  have hself := roundQuotient_mul_self n Nat.one_pos
  rw [Nat.mul_one] at hself
  rw [nearest, hplace, Nat.pow_zero, Nat.mul_one, hself]

theorem rounded_eq (n : Nat) : rounded n = if nearest n < 1 <<< 1024 then finite (nearest n) else infinite := by
  unfold rounded
  split
  · rename_i h
    rw [nearest_of_lt h, if_pos]
    exact Nat.lt_trans h (by decide +kernel)
  · simp only [Nat.one_shiftLeft]
    rfl

/-- **Rounding keeps the order.** -/
theorem nearest_mono {m n : Nat} (h : m ≤ n) : nearest m ≤ nearest n := by
  unfold nearest
  rcases Nat.lt_or_eq_of_le (lastPlace_mono h) with hlt | heq
  · calc roundQuotient m (2 ^ lastPlace m) * 2 ^ lastPlace m ≤ 2 ^ 53 * 2 ^ lastPlace m :=
          Nat.mul_le_mul_right _ (mantissa_le m)
      _ = 2 ^ 52 * 2 ^ (lastPlace m + 1) := by rw [Nat.pow_succ 2 (lastPlace m)]; omega
      _ ≤ roundQuotient n (2 ^ lastPlace n) * 2 ^ lastPlace n :=
          Nat.mul_le_mul (le_mantissa (by omega)) (Nat.pow_le_pow_right (by decide) hlt)
  · rw [heq]
    exact Nat.mul_le_mul_right _ (roundQuotient_mono _ h)

theorem nearest_canonical {q k : Nat} (hlt : q < 2 ^ 53) (hge : 0 < k → 2 ^ 52 ≤ q) :
    nearest (q * 2 ^ k) = q * 2 ^ k := by
  rw [nearest, lastPlace_canonical hlt hge, roundQuotient_mul_self q (Nat.two_pow_pos k)]

theorem nearest_nearest (n : Nat) : nearest (nearest n) = nearest n := by
  have hle := mantissa_le n
  have hge := le_mantissa (v := n)
  unfold nearest at *
  generalize lastPlace n = k at *
  generalize roundQuotient n (2 ^ k) = q at *
  rcases Nat.lt_or_eq_of_le hle with hlt | rfl
  · exact nearest_canonical hlt hge
  · have hcarry : 2 ^ 53 * 2 ^ k = 2 ^ 52 * 2 ^ (k + 1) := by rw [Nat.pow_succ 2 k]; omega
    rw [hcarry]
    exact nearest_canonical (by decide) (fun _ => Nat.le_refl _)

theorem value_rounded_mono {m n : Nat} (h : m ≤ n) : (rounded m).value ≤ (rounded n).value := by
  have hle := nearest_mono h
  rw [rounded_eq, rounded_eq]
  split
  · split
    · exact Nat.cast_le.2 hle
    · exact le_top
  · rename_i hm
    rw [if_neg (fun hn => hm (Nat.lt_of_le_of_lt hle hn))]

/-- A cost that rounding keeps. -/
def Exact : Cost → Prop
  | finite n => rounded n = finite n
  | infinite => True

theorem exact_zero : zero.Exact :=
  rounded_of_lt (by decide)

theorem exact_rounded (n : Nat) : (rounded n).Exact := by
  rw [rounded_eq]
  split
  · rename_i h
    rw [Exact, rounded_eq, nearest_nearest, if_pos h]
  · trivial

theorem Exact.max {a b : Cost} (ha : a.Exact) (hb : b.Exact) : (a.max b).Exact := by
  cases a with
  | infinite => trivial
  | finite m =>
    cases b with
    | infinite => trivial
    | finite n =>
      change (finite (Max.max m n)).Exact
      rcases Nat.le_total m n with h | h
      · rw [Nat.max_eq_right h]
        exact hb
      · rw [Nat.max_eq_left h]
        exact ha

theorem exact_add (a b : Cost) : (a.add b).Exact := by
  cases a <;> cases b
  · exact exact_rounded _
  · trivial
  · trivial
  · trivial

/-- **A sum grows with its parts.** -/
theorem value_add_mono {a a' b b' : Cost} (ha : a.value ≤ a'.value) (hb : b.value ≤ b'.value) :
    (a.add b).value ≤ (a'.add b').value := by
  cases a' with
  | infinite => exact le_top
  | finite m' =>
    cases b' with
    | infinite => exact le_top
    | finite n' =>
      cases a with
      | infinite => exact absurd ha (by simp)
      | finite m =>
        cases b with
        | infinite => exact absurd hb (by simp)
        | finite n =>
          have ha : m ≤ m' := Nat.cast_le.1 ha
          have hb : n ≤ n' := Nat.cast_le.1 hb
          exact value_rounded_mono (Nat.add_le_add ha hb)

theorem add_comm (a b : Cost) : a.add b = b.add a := by
  cases a <;> cases b <;> simp [add, Nat.add_comm]

/-- **A sum is no less than its parts.** -/
theorem value_le_add {a : Cost} (ha : a.Exact) (b : Cost) : a.value ≤ (a.add b).value := by
  cases a with
  | infinite => exact le_top
  | finite m =>
    cases b with
    | infinite => exact le_top
    | finite n =>
      calc (m : ℕ∞) = (rounded m).value := by rw [show rounded m = finite m from ha]; rfl
        _ ≤ (rounded (m + n)).value := value_rounded_mono (Nat.le_add_right m n)

theorem value_succ_mono {a b : Cost} (h : a.value ≤ b.value) : a.succ.value ≤ b.succ.value :=
  value_add_mono h le_rfl

/-- Adding ones stops at the first number that rounding does not tell from its successor. -/
theorem succ_of_le {n : Nat} (h : n ≤ exactBound) : succ (finite n) = finite (min (n + 1) exactBound) := by
  rcases Nat.lt_or_ge (n + 1) exactBound with hlt | hge
  · rw [succ_eq_of_lt hlt, Nat.min_eq_left (Nat.le_of_lt hlt)]
  · rw [Nat.min_eq_right hge]
    obtain rfl | rfl : n = 0x1fffffffffffff ∨ n = exactBound := by
      unfold exactBound at *
      omega
    · decide +kernel
    · decide +kernel

end Cost
end GroundPlanner
