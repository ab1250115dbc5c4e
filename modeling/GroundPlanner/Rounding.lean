/-!
# Rounding a quotient

`roundQuotient num den` is the whole number nearest to `num / den`; a half goes to the even neighbour.
`roundQuotient_le` bounds its distance by half a unit.
-/
namespace GroundPlanner

def roundQuotient (num den : Nat) : Nat :=
  let q := num / den
  let r := num % den
  if 2 * r < den then q
  else if 2 * r = den then (if q % 2 = 0 then q else q + 1)
  else q + 1

/-- A rounded quotient is within half a unit. -/
theorem roundQuotient_le (num den : Nat) (h : 0 < den) :
    2 * (roundQuotient num den * den) ≤ 2 * num + den ∧ 2 * num ≤ 2 * (roundQuotient num den * den) + den := by
  have hd : den * (num / den) + num % den = num := Nat.div_add_mod num den
  have hm : num % den < den := Nat.mod_lt _ h
  have hs : (num / den + 1) * den = den * (num / den) + den := by rw [Nat.add_mul, Nat.one_mul, Nat.mul_comm]
  have hc : num / den * den = den * (num / den) := Nat.mul_comm _ _
  unfold roundQuotient
  simp only
  split
  · rw [hc]; omega
  · split
    · split
      · rw [hc]; omega
      · rw [hs]; omega
    · rw [hs]; omega

/-- A half goes to the even neighbour. -/
theorem roundQuotient_half (q : Nat) : roundQuotient (2 * q + 1) 2 % 2 = 0 := by
  have h1 : (2 * q + 1) / 2 = q := by omega
  have h2 : (2 * q + 1) % 2 = 1 := by omega
  unfold roundQuotient
  rw [h1, h2, if_neg (by decide), if_pos (by decide)]
  split <;> omega

end GroundPlanner
