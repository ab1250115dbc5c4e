import Std.Data.TreeMap
/-!
# States

A state is the set of the facts that hold, stored as the bits of one number.  Its width is a whole number
of 64-bit words, so that every state of a problem has the same width and two states of one width are equal
exactly when the same facts hold in them (`ext_contains`).

The operations are fixed by what they do to `contains`: `contains_insert`, `contains_remove`,
`contains_empty`.  `toList` lists the facts in increasing order.
-/
namespace GroundPlanner

/-- The number of a fact in the fact table of its problem. -/
abbrev FactId := Nat

/-! ## Single bits -/

theorem bit_pos (n : Nat) : 0 < 1 <<< n := by
  rw [Nat.one_shiftLeft]
  exact Nat.two_pow_pos n

theorem bit_lt_bit {f n : Nat} (h : f < n) : 1 <<< f < 1 <<< n := by
  rw [Nat.one_shiftLeft, Nat.one_shiftLeft]
  exact Nat.pow_lt_pow_right (by decide) h

theorem or_bit_lt {b f n : Nat} (hb : b < 1 <<< n) (hf : f < n) : b ||| 1 <<< f < 1 <<< n := by
  have hf' := bit_lt_bit hf
  rw [Nat.one_shiftLeft n] at *
  exact Nat.or_lt_two_pow hb hf'

theorem xor_bit_lt {b f n : Nat} (hb : b < 1 <<< n) (hf : f < n) : b ^^^ 1 <<< f < 1 <<< n := by
  have hf' := bit_lt_bit hf
  rw [Nat.one_shiftLeft n] at *
  exact Nat.xor_lt_two_pow hb hf'

theorem testBit_bit (f g : Nat) : (1 <<< f).testBit g = decide (f = g) := by
  rw [Nat.one_shiftLeft]
  exact Nat.testBit_two_pow

theorem testBit_of_lt_bit {b f n : Nat} (hb : b < 1 <<< n) (hf : n ≤ f) : b.testBit f = false := by
  rw [Nat.one_shiftLeft] at hb
  exact Nat.testBit_lt_two_pow (Nat.lt_of_lt_of_le hb (Nat.pow_le_pow_right (by decide) hf))

structure State where
  words : Nat
  bits : Nat
  bits_lt : bits < 1 <<< (64 * words)
deriving DecidableEq

namespace State

/-- Facts below this bound can be held. -/
def capacity (s : State) : Nat :=
  64 * s.words

/-- The least number of words with room for `n` facts. -/
def wordsFor (n : Nat) : Nat :=
  (n + 63) / 64

/-- The state of width `words` in which nothing holds. -/
def zero (words : Nat) : State :=
  ⟨words, 0, bit_pos _⟩

/-- The state in which nothing holds, wide enough for `n` facts. -/
def empty (n : Nat) : State :=
  zero (wordsFor n)

def contains (s : State) (f : FactId) : Bool :=
  s.bits.testBit f

/-- Makes a fact true.  A fact beyond the capacity cannot be held and is left out. -/
def insert (s : State) (f : FactId) : State :=
  if h : f < s.capacity then
    ⟨s.words, s.bits ||| 1 <<< f, or_bit_lt s.bits_lt h⟩
  else s

/-- Makes a fact false. -/
def remove (s : State) (f : FactId) : State :=
  if h : f < s.capacity ∧ s.contains f = true then
    ⟨s.words, s.bits ^^^ 1 <<< f, xor_bit_lt s.bits_lt h.1⟩
  else s

def insertAll (s : State) (fs : List FactId) : State :=
  fs.foldl insert s

def removeAll (s : State) (fs : List FactId) : State :=
  fs.foldl remove s

/-- The state of the given facts, wide enough for `n` facts. -/
def ofFacts (n : Nat) (fs : List FactId) : State :=
  (empty n).insertAll fs

/-- The facts that hold, in increasing order. -/
def toList (s : State) : List FactId :=
  (List.range s.capacity).filter s.contains

def size (s : State) : Nat :=
  s.toList.length

def isEmpty (s : State) : Bool :=
  s.bits == 0

/-- A total order, by width and then by the number that stores the bits. -/
instance : Ord State where
  compare s t := (compare s.words t.words).then (compare s.bits t.bits)

/-! ## What the operations do to the facts that hold -/

theorem contains_zero (w : Nat) (f : FactId) : (zero w).contains f = false := by
  simp [contains, zero]

theorem contains_empty (n : Nat) (f : FactId) : (empty n).contains f = false :=
  contains_zero _ _

theorem le_capacity_empty (n : Nat) : n ≤ (empty n).capacity := by
  change n ≤ 64 * ((n + 63) / 64)
  omega

theorem lt_capacity_of_contains {s : State} {f : FactId} (h : s.contains f = true) : f < s.capacity := by
  rcases Nat.lt_or_ge f s.capacity with hlt | hge
  · exact hlt
  · rw [contains, testBit_of_lt_bit s.bits_lt hge] at h
    cases h

theorem words_insert (s : State) (f : FactId) : (s.insert f).words = s.words := by
  unfold insert
  split <;> rfl

theorem words_remove (s : State) (f : FactId) : (s.remove f).words = s.words := by
  unfold remove
  split <;> rfl

theorem contains_insert (s : State) (f g : FactId) :
    (s.insert f).contains g = (s.contains g || (decide (f = g) && decide (f < s.capacity))) := by
  unfold insert
  split
  · rename_i h
    rw [contains, Nat.testBit_or, testBit_bit]
    simp [contains, h]
  · rename_i h
    simp [h]

theorem contains_remove (s : State) (f g : FactId) :
    (s.remove f).contains g = (s.contains g && !decide (f = g)) := by
  unfold remove
  split
  · rename_i h
    have hf : s.bits.testBit f = true := h.2
    simp only [contains, Nat.testBit_xor, testBit_bit]
    by_cases hg : f = g
    · subst hg; simp [hf]
    · simp [hg]
  · rename_i h
    by_cases hg : f = g
    · subst hg
      cases hc : s.contains f with
      | false => rfl
      | true => exact absurd ⟨lt_capacity_of_contains hc, hc⟩ h
    · simp [hg]

theorem ext_contains {s t : State} (hw : s.words = t.words) (h : ∀ f, s.contains f = t.contains f) : s = t := by
  obtain ⟨w, b, hb⟩ := s
  obtain ⟨w', b', hb'⟩ := t
  obtain rfl : w = w' := hw
  obtain rfl : b = b' := Nat.eq_of_testBit_eq h
  rfl

theorem mem_toList {s : State} {f : FactId} : f ∈ s.toList ↔ s.contains f = true := by
  simp only [toList, List.mem_filter, List.mem_range, and_iff_right_iff_imp]
  exact lt_capacity_of_contains

end State
end GroundPlanner
