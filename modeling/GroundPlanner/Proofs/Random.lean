import GroundPlanner.Random.Source
/-!
# What can be drawn

A draw is at most two words of a source (`Covers.exists_words`).  So whatever can be drawn at all is drawn from a stream
that starts with these words, and the stream goes on after them.  Under a bound of at most `2^32` every number can be
drawn (`covers_of_le`).
-/
namespace GroundPlanner
namespace RandomSource

/-- **Every number below `n` can be drawn**, from some source in some state. -/
def Covers (n : Nat) : Prop :=
  ∀ (h : 0 < n) (k : Fin n), ∃ (R : RandomSource) (m : R.Memory), (R.below n h m).1 = k

variable {R : RandomSource} {n : Nat} {h : 0 < n} {m : R.Memory}

theorem below_of_le (hle : (R.next m).1.toNat * n % UInt32.size ≤ UInt32.size - n) :
    R.below n h m = (⟨scaled (R.next m).1 n 0, scaled_word_lt h⟩, (R.next m).2) := by
  unfold below
  simp only [if_pos hle]

theorem below_of_not_le (hle : ¬ (R.next m).1.toNat * n % UInt32.size ≤ UInt32.size - n) :
    R.below n h m =
      (⟨scaled (R.next m).1 n (scaled (R.next (R.next m).2).1 n 0), scaled_word_lt (scaled_word_lt h)⟩,
        (R.next (R.next m).2).2) := by
  unfold below
  simp only [if_neg hle]

/-- **What can be drawn is drawn from some words**, one or two, and those that follow are left. -/
theorem Covers.exists_words (hn : Covers n) (h : 0 < n) (k : Fin n) : ∃ ws, ∀ words rest : List UInt32,
    (cycle words).below n h (ws ++ rest) = (k, rest) := by
  obtain ⟨R, m, rfl⟩ := hn h k
  by_cases hle : (R.next m).1.toNat * n % UInt32.size ≤ UInt32.size - n
  · refine ⟨[(R.next m).1], fun words rest => ?_⟩
    rw [below_of_le hle]
    exact below_of_le (R := cycle words) hle
  · refine ⟨[(R.next m).1, (R.next (R.next m).2).1], fun words rest => ?_⟩
    rw [below_of_not_le hle]
    exact below_of_not_le (R := cycle words) hle

/-- Among the multiples of `n` one follows `k` by less than `n`. -/
theorem exists_mul_between (h : 0 < n) (k : Nat) : ∃ w, k ≤ w * n ∧ w * n < k + n := by
  refine ⟨(k + (n - 1)) / n, ?_, ?_⟩
  · have hnext : k + (n - 1) < n * ((k + (n - 1)) / n + 1) := Nat.lt_mul_div_succ _ h
    rw [Nat.mul_succ, Nat.mul_comm] at hnext
    omega
  · have hle : (k + (n - 1)) / n * n ≤ k + (n - 1) := Nat.div_mul_le_self _ _
    omega

/-- **Under a bound of at most `2^32` every number can be drawn**: the least word whose product with the bound reaches
the number draws it, with a second word that carries nothing. -/
theorem covers_of_le (hn : n ≤ UInt32.size) : Covers n := by
  intro h k
  obtain ⟨w, hlow, hhigh⟩ := exists_mul_between h (k.val * UInt32.size)
  have htop : w * n < (k.val + 1) * UInt32.size := by
    rw [Nat.succ_mul]
    omega
  have hw : w < UInt32.size := by
    have hmul : w * n < UInt32.size * n :=
      Nat.lt_of_lt_of_le htop (Nat.mul_comm n _ ▸ Nat.mul_le_mul_right _ k.isLt)
    exact Nat.lt_of_mul_lt_mul_right hmul
  have hword : (UInt32.ofNat w).toNat = w := UInt32.toNat_ofNat_of_lt' hw
  have hscaled : scaled (UInt32.ofNat w) n 0 = k.val := by
    rw [scaled, hword]
    exact Nat.div_eq_of_lt_le hlow htop
  have hcarry : scaled 0 n 0 = 0 := by
    rw [scaled]
    simp
  let R := cycle [UInt32.ofNat w, 0]
  refine ⟨R, R.start, Fin.ext ?_⟩
  by_cases hle : (R.next R.start).1.toNat * n % UInt32.size ≤ UInt32.size - n
  · rw [below_of_le hle]
    exact hscaled
  · rw [below_of_not_le hle]
    change scaled (UInt32.ofNat w) n (scaled 0 n 0) = k.val
    rw [hcarry, hscaled]

end RandomSource
end GroundPlanner
