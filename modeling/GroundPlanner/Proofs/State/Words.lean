import GroundPlanner.Condition
import Mathlib.Algebra.GroupWithZero.Nat
import Mathlib.Data.List.Sort
/-!
# The words of a state

A state as a machine keeps it: a row of 64-bit words, fact `f` being bit `f % 64` of word `f / 64`.  The row of a state
(`State.row`) goes through the same operations as the state does (`row_insert`, `row_remove`), and reads the same
(`contains_row`, `size_row`, `isEmpty_row`, `toList_row`).
-/
namespace GroundPlanner

abbrev Word := BitVec 64

namespace Word

/-- The word with the bit of fact `f` alone. -/
def bit (f : Nat) : Word :=
  1#64 <<< (f % 64)

/-! ## The lowest bit -/

section LowestBit

variable {w : Word}

theorem getLsbD_ctz (hw : w ≠ 0#64) : w.getLsbD w.ctz.toNat = true :=
  BitVec.getLsbD_true_ctz_of_ne_zero hw

theorem toNat_mod_ctz (hw : w ≠ 0#64) : w.toNat % 2 ^ (w.ctz.toNat + 1) = 2 ^ w.ctz.toNat := by
  apply Nat.eq_of_testBit_eq
  intro i
  rw [Nat.testBit_mod_two_pow, Nat.testBit_two_pow, BitVec.testBit_toNat]
  rcases Nat.lt_trichotomy i w.ctz.toNat with h | rfl | h
  · rw [BitVec.getLsbD_false_of_lt_ctz h]
    simp [Nat.ne_of_gt h]
  · simp [getLsbD_ctz hw]
  · simp [Nat.ne_of_lt h, show ¬i < w.ctz.toNat + 1 by omega]

theorem toNat_pred (hw : w ≠ 0#64) : (w - 1#64).toNat = w.toNat - 1 := by
  have hpos : w.toNat ≠ 0 := fun h => hw (BitVec.eq_of_toNat_eq h)
  apply BitVec.toNat_sub_of_le
  rw [BitVec.le_def, BitVec.toNat_ofNat]
  omega

/-- **A word and its predecessor** share the bits of the word above the lowest one, and no other. -/
theorem getLsbD_and_pred (hw : w ≠ 0#64) (i : Nat) :
    (w &&& (w - 1#64)).getLsbD i = (w.getLsbD i && decide (i ≠ w.ctz.toNat)) := by
  have hmod := toNat_mod_ctz hw
  generalize w.ctz.toNat = t at hmod
  have hpos : 0 < 2 ^ t := Nat.two_pow_pos t
  have hpow : 2 ^ t < 2 ^ (t + 1) := Nat.pow_lt_pow_right (by decide) (Nat.lt_succ_self t)
  -- the word is the part above its lowest bit and that bit; its predecessor has all the bits below instead
  have hsplit : w.toNat = 2 ^ (t + 1) * (w.toNat / 2 ^ (t + 1)) + 2 ^ t := by
    have := Nat.div_add_mod w.toNat (2 ^ (t + 1))
    omega
  generalize w.toNat / 2 ^ (t + 1) = q at hsplit
  have hpred : (w - 1#64).toNat = 2 ^ (t + 1) * q + (2 ^ t - 1) := by
    rw [toNat_pred hw]
    omega
  rw [BitVec.getLsbD_and, ← BitVec.testBit_toNat, ← BitVec.testBit_toNat, hpred, hsplit,
    Nat.testBit_two_pow_mul_add _ hpow, Nat.testBit_two_pow_mul_add _ (by omega)]
  rcases Nat.lt_trichotomy i t with h | rfl | h
  · simp [show i < t + 1 by omega, Nat.ne_of_gt h]
  · simp [Nat.testBit_two_pow_sub_one]
  · simp [show ¬i < t + 1 by omega, Nat.ne_of_gt h]

theorem and_pred_lt (hw : w ≠ 0#64) : (w &&& (w - 1#64)).toNat < w.toNat := by
  have hpos : w.toNat ≠ 0 := fun h => hw (BitVec.eq_of_toNat_eq h)
  have hle : (w &&& (w - 1#64)).toNat ≤ w.toNat - 1 := by
    rw [BitVec.toNat_and, toNat_pred hw]
    exact Nat.and_le_right
  omega

end LowestBit

/-! ## The bits of a word -/

/-- The places of the bits of a word: the lowest is taken and cleared, until none is left. -/
def ones (w : Word) : List Nat :=
  if w = 0#64 then [] else w.ctz.toNat :: ones (w &&& (w - 1#64))
termination_by w.toNat
decreasing_by exact and_pred_lt ‹_›

theorem mem_ones {w : Word} {i : Nat} : i ∈ w.ones ↔ w.getLsbD i = true := by
  fun_induction ones w with
  | case1 => simp
  | case2 w h ih =>
    rw [List.mem_cons, ih, getLsbD_and_pred h]
    by_cases hi : i = w.ctz.toNat
    · simp [hi, getLsbD_ctz h]
    · simp [hi]

theorem sortedLT_ones (w : Word) : w.ones.Pairwise (· < ·) := by
  fun_induction ones w with
  | case1 => exact .nil
  | case2 w h ih =>
    refine List.pairwise_cons.2 ⟨fun i hi => ?_, ih⟩
    rw [mem_ones, getLsbD_and_pred h, Bool.and_eq_true, decide_eq_true_eq] at hi
    rcases Nat.lt_or_ge w.ctz.toNat i with hlt | hge
    · exact hlt
    · have hfalse := BitVec.getLsbD_false_of_lt_ctz (Nat.lt_of_le_of_ne hge hi.2)
      rw [hi.1] at hfalse
      cases hfalse

theorem ones_eq (w : Word) : w.ones = (List.range 64).filter w.getLsbD := by
  refine List.Pairwise.eq_of_mem_iff (sortedLT_ones w) (List.pairwise_lt_range.filter _) (fun i => ?_)
  rw [mem_ones, List.mem_filter, List.mem_range]
  exact ⟨fun h => ⟨BitVec.lt_of_getLsbD h, h⟩, And.right⟩

theorem cpopNatRec_eq (w : Word) (n acc : Nat) :
    w.cpopNatRec n acc = acc + ((List.range n).filter w.getLsbD).length := by
  induction n generalizing acc with
  | zero => simp
  | succ n ih =>
    rw [BitVec.cpopNatRec_succ, ih, List.range_succ, List.filter_append, List.length_append]
    cases hn : w.getLsbD n with
    | false => simp [hn]
    | true =>
      simp [hn]
      omega

theorem length_ones (w : Word) : w.ones.length = w.cpop.toNat := by
  rw [BitVec.toNat_cpop, cpopNatRec_eq, Nat.zero_add, ones_eq]

theorem getLsbD_bit (f : Nat) (i : Nat) : (bit f).getLsbD i = decide (i = f % 64) := by
  rw [bit, BitVec.getLsbD_shiftLeft, BitVec.getLsbD_one]
  have hf : f % 64 < 64 := Nat.mod_lt _ (by decide)
  by_cases hi : i = f % 64
  · simp [hi, hf]
  · simp only [hi, decide_false]
    by_cases hlt : i < f % 64
    · simp [hlt]
    · simp [show i - f % 64 ≠ 0 by omega]

theorem getLsbD_or_bit (w : Word) (f i : Nat) :
    (w ||| bit f).getLsbD i = (w.getLsbD i || decide (i = f % 64)) := by
  rw [BitVec.getLsbD_or, getLsbD_bit]

theorem getLsbD_and_not_bit (w : Word) (f i : Nat) :
    (w &&& ~~~bit f).getLsbD i = (w.getLsbD i && !decide (i = f % 64)) := by
  rw [BitVec.getLsbD_and, BitVec.getLsbD_not, getLsbD_bit]
  rcases Nat.lt_or_ge i 64 with hlt | hge
  · simp [hlt]
  · simp [BitVec.getLsbD_of_ge w i hge]

theorem and_bit_ne_zero (w : Word) (f : Nat) : (w &&& bit f != 0#64) = w.getLsbD (f % 64) := by
  cases hf : w.getLsbD (f % 64) with
  | false =>
    have hzero : w &&& bit f = 0#64 := by
      apply BitVec.eq_of_getLsbD_eq
      intro i _
      rw [BitVec.getLsbD_and, getLsbD_bit, BitVec.getLsbD_zero]
      by_cases hi : i = f % 64
      · simp [hi, hf]
      · simp [hi]
    simp [hzero]
  | true =>
    have hset : (w &&& bit f).getLsbD (f % 64) = true := by
      rw [BitVec.getLsbD_and, hf, getLsbD_bit]
      simp
    rw [bne_iff_ne]
    intro hzero
    rw [hzero, BitVec.getLsbD_zero] at hset
    cases hset

end Word

/-! ## Rows of words -/

abbrev Row := List Word

namespace Row

def empty (n : Nat) : Row :=
  List.replicate (State.wordsFor n) 0#64

def contains (r : Row) (f : Nat) : Bool :=
  r[f / 64]?.any (fun w => w &&& Word.bit f != 0#64)

/-- Makes a fact true.  There is no word for a fact beyond the row, which is left out. -/
def insert (r : Row) (f : Nat) : Row :=
  r.modify (f / 64) (· ||| Word.bit f)

def remove (r : Row) (f : Nat) : Row :=
  r.modify (f / 64) (· &&& ~~~Word.bit f)

def ofFacts (n : Nat) (fs : List Nat) : Row :=
  fs.foldl insert (empty n)

def apply (r : Row) (e : Effect) : Row :=
  e.add.foldl insert (e.delete.foldl remove r)

/-- The number of bits, word by word. -/
def size (r : Row) : Nat :=
  (r.map (fun w => w.cpop.toNat)).sum

def isEmpty (r : Row) : Bool :=
  r.all (· == 0#64)

/-- The facts that hold, word by word. -/
def toList (r : Row) : List Nat :=
  r.zipIdx.flatMap (fun p => p.1.ones.map (64 * p.2 + ·))

theorem contains_eq (r : Row) (f : Nat) : r.contains f = r[f / 64]?.any (·.getLsbD (f % 64)) := by
  simp only [contains, Word.and_bit_ne_zero]

theorem contains_word {r : Row} {i j : Nat} (hi : i < r.length) (hj : j < 64) :
    r.contains (64 * i + j) = r[i].getLsbD j := by
  rw [contains_eq, show (64 * i + j) / 64 = i by omega, show (64 * i + j) % 64 = j by omega,
    List.getElem?_eq_getElem hi, Option.any_some]

theorem contains_beyond {r : Row} {f : Nat} (hf : 64 * r.length ≤ f) : r.contains f = false := by
  rw [contains_eq, List.getElem?_eq_none (by omega), Option.any_none]

theorem length_insert (r : Row) (f : Nat) : (r.insert f).length = r.length :=
  List.length_modify _ _ _

theorem length_remove (r : Row) (f : Nat) : (r.remove f).length = r.length :=
  List.length_modify _ _ _

theorem contains_empty (n : Nat) (f : Nat) : (empty n).contains f = false := by
  rw [contains_eq, empty, List.getElem?_replicate]
  split <;> simp

theorem contains_insert (r : Row) (f g : Nat) :
    (r.insert f).contains g = (r.contains g || (decide (f = g) && decide (f < 64 * r.length))) := by
  rw [contains_eq, contains_eq, insert, List.getElem?_modify]
  rcases Nat.lt_or_ge (g / 64) r.length with hlt | hge
  · rw [List.getElem?_eq_getElem hlt]
    by_cases hword : f / 64 = g / 64
    · have hfg : f = g ↔ g % 64 = f % 64 := by omega
      simp only [hword, if_true, Option.map_eq_map, Option.map_some, Option.any_some, Word.getLsbD_or_bit, hfg,
        show f < 64 * r.length by omega, decide_true, Bool.and_true]
    · simp [hword, show f ≠ g from fun h => hword (h ▸ rfl)]
  · rw [List.getElem?_eq_none hge]
    by_cases hfg : f = g
    · simp [hfg, show ¬g < 64 * r.length by omega]
    · simp [hfg]

theorem contains_remove (r : Row) (f g : Nat) :
    (r.remove f).contains g = (r.contains g && !decide (f = g)) := by
  rw [contains_eq, contains_eq, remove, List.getElem?_modify]
  cases hg : r[g / 64]? with
  | none => rfl
  | some w =>
    by_cases hword : f / 64 = g / 64
    · have hfg : f = g ↔ g % 64 = f % 64 := by omega
      simp only [hword, if_true, Option.map_eq_map, Option.map_some, Option.any_some, Word.getLsbD_and_not_bit, hfg]
    · simp [hword, show f ≠ g from fun h => hword (h ▸ rfl)]

/-- **Rows of one length are equal exactly when they hold the same facts**, for every bit is that of a fact. -/
theorem ext_contains {r t : Row} (hl : r.length = t.length) (h : ∀ f, r.contains f = t.contains f) : r = t := by
  refine List.ext_getElem hl (fun i hr ht => BitVec.eq_of_getLsbD_eq (fun j hj => ?_))
  rw [← contains_word hr hj, ← contains_word ht hj]
  exact h _

theorem isEmpty_iff {r : Row} : r.isEmpty = true ↔ ∀ f, r.contains f = false := by
  rw [isEmpty, List.all_eq_true]
  constructor
  · intro h f
    rw [contains_eq]
    cases hw : r[f / 64]? with
    | none => rfl
    | some w =>
      have hzero := h w (List.mem_of_getElem? hw)
      rw [beq_iff_eq] at hzero
      rw [Option.any_some, hzero, BitVec.getLsbD_zero]
  · intro h w hw
    obtain ⟨i, hi, rfl⟩ := List.getElem_of_mem hw
    rw [beq_iff_eq]
    apply BitVec.eq_of_getLsbD_eq
    intro j hj
    rw [← contains_word hi hj, h, BitVec.getLsbD_zero]

theorem mem_toList {r : Row} {f : Nat} : f ∈ r.toList ↔ r.contains f = true := by
  rw [toList, List.mem_flatMap, contains_eq, Option.any_eq_true]
  constructor
  · rintro ⟨⟨w, i⟩, hw, hf⟩
    obtain ⟨j, hj, rfl⟩ := List.mem_map.1 hf
    have hset := Word.mem_ones.1 hj
    have hlt := BitVec.lt_of_getLsbD hset
    refine ⟨w, ?_, ?_⟩
    · rw [show (64 * i + j) / 64 = i by omega]
      exact List.mem_zipIdx_iff_getElem?.1 hw
    · rw [show (64 * i + j) % 64 = j by omega]
      exact hset
  · rintro ⟨w, hw, hset⟩
    exact ⟨(w, f / 64), List.mem_zipIdx_iff_getElem?.2 hw,
      List.mem_map.2 ⟨f % 64, Word.mem_ones.2 hset, Nat.div_add_mod f 64⟩⟩

theorem sortedLT_toList (r : Row) : r.toList.Pairwise (· < ·) := by
  refine List.pairwise_flatMap.2 ⟨fun p _ => ?_, ?_⟩
  · exact List.pairwise_map.2 ((Word.sortedLT_ones p.1).imp (fun h => by omega))
  · -- the numbers of one word are below those of every later word
    have hidx : r.zipIdx.Pairwise (fun p q => p.2 < q.2) := by
      rw [← List.pairwise_map (f := Prod.snd), List.zipIdx_map_snd]
      exact List.pairwise_lt_range'
    refine hidx.imp (fun {p q} hpq f hf g hg => ?_)
    obtain ⟨i, hi, rfl⟩ := List.mem_map.1 hf
    obtain ⟨j, _, rfl⟩ := List.mem_map.1 hg
    have hlt := BitVec.lt_of_getLsbD (Word.mem_ones.1 hi)
    omega

theorem size_eq (r : Row) : r.size = r.toList.length := by
  rw [size, toList, List.length_flatMap]
  simp only [List.length_map, Word.length_ones]
  calc (r.map (fun w => w.cpop.toNat)).sum
    _ = ((r.zipIdx.map Prod.fst).map (fun w => w.cpop.toNat)).sum := by rw [List.zipIdx_map_fst]
    _ = (r.zipIdx.map (fun p => p.1.cpop.toNat)).sum := by rw [List.map_map]; rfl

end Row

/-! ## The row of a state -/

namespace State

def row (s : State) : Row :=
  (List.range s.words).map (fun i => BitVec.ofNat 64 (s.bits >>> (64 * i)))

theorem length_row (s : State) : s.row.length = s.words := by
  rw [row, List.length_map, List.length_range]

theorem contains_row (s : State) (f : Nat) : s.row.contains f = s.contains f := by
  rcases Nat.lt_or_ge f s.capacity with hlt | hge
  · have hi : f / 64 < s.words := by
      rw [capacity] at hlt
      omega
    rw [Row.contains_eq, row, List.getElem?_map, List.getElem?_range hi, Option.map_some, Option.any_some,
      BitVec.getLsbD_ofNat, Nat.testBit_shiftRight, Nat.div_add_mod, contains]
    simp [Nat.mod_lt f (show 64 > 0 by decide)]
  · rw [Row.contains_beyond (by rwa [length_row]), contains, testBit_of_lt_bit s.bits_lt hge]

theorem row_injective : Function.Injective row := by
  intro s t h
  refine ext_contains ?_ (fun f => ?_)
  · rw [← length_row, h, length_row]
  · rw [← contains_row, h, contains_row]

theorem row_empty (n : Nat) : (empty n).row = Row.empty n := by
  refine Row.ext_contains ?_ (fun f => ?_)
  · rw [length_row, Row.empty, List.length_replicate]
    rfl
  · rw [contains_row, contains_empty, Row.contains_empty]

theorem row_insert (s : State) (f : FactId) : (s.insert f).row = s.row.insert f := by
  refine Row.ext_contains ?_ (fun g => ?_)
  · rw [length_row, words_insert, Row.length_insert, length_row]
  · rw [contains_row, contains_insert, Row.contains_insert, contains_row, length_row, capacity]

theorem row_remove (s : State) (f : FactId) : (s.remove f).row = s.row.remove f := by
  refine Row.ext_contains ?_ (fun g => ?_)
  · rw [length_row, words_remove, Row.length_remove, length_row]
  · rw [contains_row, contains_remove, Row.contains_remove, contains_row]

theorem row_insertAll (s : State) (fs : List FactId) : (s.insertAll fs).row = fs.foldl Row.insert s.row :=
  (List.foldl_hom row (fun s f => (row_insert s f).symm)).symm

theorem row_removeAll (s : State) (fs : List FactId) : (s.removeAll fs).row = fs.foldl Row.remove s.row :=
  (List.foldl_hom row (fun s f => (row_remove s f).symm)).symm

theorem row_ofFacts (n : Nat) (fs : List FactId) : (ofFacts n fs).row = Row.ofFacts n fs := by
  rw [ofFacts, row_insertAll, row_empty, Row.ofFacts]

theorem row_apply (s : State) (e : Effect) : (s.apply e).row = s.row.apply e := by
  rw [apply, row_insertAll, row_removeAll, Row.apply]

theorem sortedLT_toList (s : State) : s.toList.Pairwise (· < ·) :=
  List.pairwise_lt_range.filter _

theorem toList_row (s : State) : s.row.toList = s.toList := by
  refine (Row.sortedLT_toList s.row).eq_of_mem_iff s.sortedLT_toList (fun f => ?_)
  rw [Row.mem_toList, mem_toList, contains_row]

theorem size_row (s : State) : s.row.size = s.size := by
  rw [Row.size_eq, toList_row, size]

theorem isEmpty_iff {s : State} : s.isEmpty = true ↔ ∀ f, s.contains f = false := by
  rw [isEmpty, beq_iff_eq]
  constructor
  · intro h f
    rw [contains, h, Nat.zero_testBit]
  · intro h
    apply Nat.eq_of_testBit_eq
    intro f
    rw [Nat.zero_testBit]
    exact h f

theorem isEmpty_row (s : State) : s.row.isEmpty = s.isEmpty := by
  rw [Bool.eq_iff_iff, Row.isEmpty_iff, isEmpty_iff]
  simp only [contains_row]

end State
end GroundPlanner
