import GroundPlanner.Proofs.Naming
import GroundPlanner.Text.Digits
import Mathlib.Data.List.Basic
/-!
# Numbers in texts

A number is written in digits alone, so a text without a digit at its front shows where a number before it ends
(`Text.toDigits_append_inj`): names that end in a number tell their parts, and so do names composed of them
(`Text.Delimited`).  The digits of a number read back as the number (`Text.digits?_toDigits`).
-/
namespace GroundPlanner
namespace Text

/-- The text does not go on with a digit. -/
def Halts (cs : List Char) : Prop :=
  ∀ c ∈ cs.head?, c.isDigit = false

variable {m n : Nat} {cs ds : List Char}

theorem halts_nil : Halts [] :=
  fun _ h => by cases h

theorem halts_cons {c : Char} (h : c.isDigit = false) : Halts (c :: cs) :=
  fun _ hc => Option.some.inj hc ▸ h

theorem toList_ofNat (n : Nat) : (ofNat n).toList = Nat.toDigits 10 n :=
  String.toList_ofList

theorem isDigit_of_mem_toDigits {c : Char} (h : c ∈ Nat.toDigits 10 n) : c.isDigit = true :=
  Nat.isDigit_of_mem_toDigits (by decide) (by decide) h

theorem takeWhile_toDigits_append (h : Halts cs) :
    (Nat.toDigits 10 n ++ cs).takeWhile Char.isDigit = Nat.toDigits 10 n := by
  rw [List.takeWhile_append_of_pos fun _ hc => isDigit_of_mem_toDigits hc]
  cases cs with
  | nil => exact List.append_nil _
  | cons c cs => rw [List.takeWhile_cons_of_neg (by rw [h c rfl]; exact Bool.false_ne_true), List.append_nil]

/-- **Where a number ends, the rest begins.** -/
theorem toDigits_append_inj (hc : Halts cs) (hd : Halts ds) (h : Nat.toDigits 10 m ++ cs = Nat.toDigits 10 n ++ ds) :
    m = n ∧ cs = ds := by
  have hdigits : Nat.toDigits 10 m = Nat.toDigits 10 n := by
    rw [← takeWhile_toDigits_append hc, h, takeWhile_toDigits_append hd]
  refine ⟨ofNat_injective (congrArg String.ofList hdigits), ?_⟩
  rwa [hdigits, List.append_right_inj] at h

/-! ## Names that end in a number -/

section Delimited

variable {α : Type} {name : α → String}

/-- Where a name ends shows in every text that does not go on with a digit. -/
def Delimited (name : α → String) : Prop :=
  ∀ x y cs ds, Halts cs → Halts ds → (name x).toList ++ cs = (name y).toList ++ ds → x = y ∧ cs = ds

theorem Delimited.injective (h : Delimited name) : Function.Injective name :=
  fun x y hxy => (h x y [] [] halts_nil halts_nil (by rw [hxy])).1

/-- Names of which none begins with another. -/
theorem delimited_of_prefixFree (h : ∀ x y, (name x).toList <+: (name y).toList → x = y) : Delimited name := by
  intro x y cs ds _ _ heq
  have hxy : x = y := by
    rcases List.append_eq_append_iff.1 heq with ⟨as, has, -⟩ | ⟨bs, hbs, -⟩
    · exact h x y ⟨as, has.symm⟩
    · exact (h y x ⟨bs, hbs.symm⟩).symm
  rw [hxy, List.append_right_inj] at heq
  exact ⟨hxy, heq⟩

/-- A prefix of all names does not matter. -/
theorem Delimited.prepend (h : Delimited name) (start : String) : Delimited (fun x => start ++ name x) := by
  intro x y cs ds hcs hds heq
  rw [String.toList_append, String.toList_append, List.append_assoc, List.append_assoc, List.append_right_inj] at heq
  exact h x y cs ds hcs hds heq

theorem delimited_ofNat : Delimited ofNat := by
  intro m n cs ds hcs hds heq
  rw [toList_ofNat, toList_ofNat] at heq
  exact toDigits_append_inj hcs hds heq

/-- **Two names with a text in between**, if it does not start with a digit. -/
theorem Delimited.pair {β : Type} {other : β → String} (h : Delimited name) (h' : Delimited other) {between : String}
    (hb : ∃ c rest, between.toList = c :: rest ∧ c.isDigit = false) :
    Delimited (fun x : α × β => name x.1 ++ between ++ other x.2) := by
  obtain ⟨c, rest, hbetween, hc⟩ := hb
  intro x y cs ds hcs hds heq
  simp only [String.toList_append, List.append_assoc, hbetween, List.cons_append] at heq
  obtain ⟨hfst, htail⟩ := h x.1 y.1 _ _ (halts_cons hc) (halts_cons hc) heq
  rw [List.cons.injEq, List.append_right_inj] at htail
  obtain ⟨hsnd, hrest⟩ := h' x.2 y.2 cs ds hcs hds htail.2
  exact ⟨Prod.ext hfst hsnd, hrest⟩

/-- Names of several kinds, each kind with its own first character. -/
theorem injective_of_head (kind : α → Char) (hhead : ∀ x, (name x).toList.head? = some (kind x))
    (h : ∀ x y, kind x = kind y → name x = name y → x = y) : Function.Injective name := by
  intro x y hxy
  refine h x y (Option.some.inj ?_) hxy
  rw [← hhead x, hxy, hhead y]

end Delimited

/-! ## Reading numbers -/

theorem digitValue_of_isDigit {c : Char} (h : c.isDigit = true) : digitValue c = c.toNat - '0'.toNat :=
  if_pos h

theorem isDigitIn_ten {c : Char} (h : c.isDigit = true) : isDigitIn 10 c = true := by
  have hle : c.toNat ≤ '9'.toNat := (Char.isDigit_iff_toNat.1 h).2
  rw [isDigitIn, digitValue_of_isDigit h, decide_eq_true_eq]
  exact Nat.lt_succ_of_le (Nat.sub_le_sub_right hle '0'.toNat)

theorem valueOf_toDigits (n : Nat) : valueOf 10 (Nat.toDigits 10 n) = n := by
  have hfold : valueOf 10 (Nat.toDigits 10 n) = Nat.ofDigitChars 10 (Nat.toDigits 10 n) 0 := by
    rw [Nat.ofDigitChars_eq_foldl, valueOf]
    refine List.foldl_ext _ _ 0 fun v c hc => ?_
    rw [digitValue_of_isDigit (isDigit_of_mem_toDigits hc), Nat.mul_comm]
  rw [hfold, Nat.ofDigitChars_ten_toDigits]

/-- **A number reads back from its digits.** -/
theorem digits?_toDigits (n : Nat) : digits? 10 (Nat.toDigits 10 n) = some n := by
  have hempty : (Nat.toDigits 10 n).isEmpty = false := List.isEmpty_eq_false_iff.2 Nat.toDigits_ne_nil
  have hall : (Nat.toDigits 10 n).all (isDigitIn 10) = true :=
    List.all_eq_true.2 fun c hc => isDigitIn_ten (isDigit_of_mem_toDigits hc)
  rw [digits?, hempty, hall, valueOf_toDigits]
  rfl

end Text
end GroundPlanner
