/-!
# Sources of random words

A source produces 32-bit words one after another.  `below` draws a number under a bound: the high half of
the product of a word and the bound, corrected by a second word when the low half could carry.  A word is
drawn even if there is only one number to choose from.
-/
namespace GroundPlanner

structure RandomSource where
  Memory : Type
  start : Memory
  next : Memory → UInt32 × Memory

namespace RandomSource

/-- The high half of a product with a word is below the other factor, also with a carry from a second
product. -/
theorem scaled_lt {r n c : Nat} (hr : r < UInt32.size) (hc : c < n) :
    (r * n + c) / UInt32.size < n := by
  rw [Nat.div_lt_iff_lt_mul (by decide)]
  have h : (r + 1) * n ≤ UInt32.size * n := Nat.mul_le_mul_right n hr
  rw [Nat.add_mul, Nat.one_mul] at h
  rw [Nat.mul_comm n]
  omega

/-- The high half of the product of a word and `n`, with the carry of `extra`, a number below `n`. -/
def scaled (word : UInt32) (n extra : Nat) : Nat :=
  (word.toNat * n + extra) / UInt32.size

theorem scaled_word_lt {word : UInt32} {n extra : Nat} (h : extra < n) : scaled word n extra < n :=
  scaled_lt word.toNat_lt h

/-- Draws a number below `n`, for an `n` up to `2^32`.  Below a greater one it would take words of 64 bits, which are
not drawn here. -/
def below (R : RandomSource) (n : Nat) (h : 0 < n) (m : R.Memory) : Fin n × R.Memory :=
  let (word, m) := R.next m
  if word.toNat * n % UInt32.size ≤ UInt32.size - n then
    (⟨scaled word n 0, scaled_word_lt h⟩, m)
  else
    let (second, m) := R.next m
    (⟨scaled word n (scaled second n 0), scaled_word_lt (scaled_word_lt h)⟩, m)

/-- The same words, with a count of those drawn. -/
def counted (R : RandomSource) : RandomSource where
  Memory := R.Memory × Nat
  start := (R.start, 0)
  next := fun (m, n) =>
    let (word, m) := R.next m
    (word, m, n + 1)

/-- The given words in turn, starting over at the end; zeros if there are none. -/
def cycle (words : List UInt32) : RandomSource where
  Memory := List UInt32
  start := words
  next := fun
    | word :: rest => (word, rest)
    | [] => match words with
      | word :: rest => (word, rest)
      | [] => (0, [])

end RandomSource
end GroundPlanner
