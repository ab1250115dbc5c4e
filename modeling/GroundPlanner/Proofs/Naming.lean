import GroundPlanner.Proofs.Draft
import Mathlib.Data.List.Forall2
import Mathlib.Data.List.Nodup
import Std.Data.String.ToNat
/-!
# Drafts that build

A fact table is a list of names without its later repetitions (`distinct_eq_eraseDups`), and different names are kept as
they are (`distinct_eq_self`).  Names resolve to the places of their entries (`resolve_eq_ok_iff`).  So where facts are
named by their numbers, every list of facts resolves to the numbers (`resolve_map`), and actions of different names build
as each of them does (`ActionDraft.buildAll_eq_ok`).
-/
namespace GroundPlanner

variable {table prior : List String} {context : FactContext} {n : Nat} {name : Nat → String}

theorem firstMentions_eq_self {seen xs : List String} (h : (seen ++ xs).Nodup) : firstMentions seen xs = xs := by
  induction xs generalizing seen with
  | nil => rfl
  | cons x xs ih =>
    have hout : x ∉ seen := fun hx => (List.nodup_append'.1 h).2.2 hx List.mem_cons_self
    rw [firstMentions, if_neg hout, ih]
    exact List.perm_middle.nodup_iff.1 h

/-- **A table of different names is kept as it is.** -/
theorem distinct_eq_self {xs : List String} (h : xs.Nodup) : distinct xs = xs :=
  firstMentions_eq_self (by rwa [List.nil_append])

theorem firstMentions_eq_eraseDups (seen xs : List String) :
    firstMentions seen xs = (xs.filter (· ∉ seen)).eraseDups := by
  induction xs generalizing seen with
  | nil => rfl
  | cons x xs ih =>
    unfold firstMentions
    by_cases hx : x ∈ seen
    · rw [if_pos hx, ih, List.filter_cons_of_neg (by simpa using hx)]
    · have hrest : xs.filter (· ∉ x :: seen) = (xs.filter (· ∉ seen)).filter (fun y => !y == x) := by
        rw [List.filter_filter]
        refine List.filter_congr fun y _ => ?_
        simp only [List.mem_cons, not_or, Bool.decide_and, decide_not, Bool.beq_eq_decide_eq]
      rw [if_neg hx, ih, List.filter_cons_of_pos (by simpa using hx), List.eraseDups_cons, hrest]

theorem distinct_eq_eraseDups (xs : List String) : distinct xs = xs.eraseDups := by
  rw [distinct, firstMentions_eq_eraseDups, List.filter_eq_self.2 (by simp)]

theorem mem_distinct {xs : List String} {x : String} : x ∈ distinct xs ↔ x ∈ xs := by
  rw [distinct_eq_eraseDups, List.mem_eraseDups]

theorem nodup_firstMentions (seen xs : List String) : (firstMentions seen xs).Nodup := by
  induction xs generalizing seen with
  | nil => exact List.nodup_nil
  | cons x xs ih =>
    unfold firstMentions
    split
    · exact ih seen
    · refine List.nodup_cons.2 ⟨fun hx => ?_, ih _⟩
      rw [firstMentions_eq_eraseDups, List.mem_eraseDups, List.mem_filter] at hx
      simp at hx

theorem nodup_distinct (xs : List String) : (distinct xs).Nodup :=
  nodup_firstMentions [] xs

/-- **Names resolve to the places of their entries.** -/
theorem resolve_eq_ok_iff {names : List String} {fs : List FactId} :
    resolve table context names = .ok fs ↔ names.map table.idxOf? = fs.map some := by
  induction names generalizing fs with
  | nil =>
    rw [resolve, Except.ok.injEq, List.map_nil, eq_comm, eq_comm (a := []), List.map_eq_nil_iff]
  | cons x names ih =>
    rw [resolve, List.map_cons]
    cases hx : table.idxOf? x with
    | none =>
      refine iff_of_false nofun fun h => ?_
      cases fs with
      | nil => cases h
      | cons f fs => cases (List.cons.inj h).1
    | some f =>
      constructor
      · intro h
        obtain ⟨fs', hfs, h⟩ := bind_eq_ok.1 h
        cases h
        rw [List.map_cons, ih.1 hfs]
      · intro h
        cases fs with
        | nil => cases h
        | cons g fs =>
          obtain ⟨hfg, hfs⟩ := List.cons.inj h
          cases hfg
          exact bind_eq_ok.2 ⟨fs, ih.2 hfs, rfl⟩

theorem Text.ofNat_injective : Function.Injective Text.ofNat := by
  intro m n h
  unfold Text.ofNat at h
  rw [← Nat.repr_eq_ofList_toDigits, ← Nat.repr_eq_ofList_toDigits] at h
  exact Nat.repr_inj.1 h

/-- **Facts that are named by their numbers resolve to them.** -/
theorem resolve_map (hname : Function.Injective name) (context : FactContext) {fs : List FactId} (h : ∀ f ∈ fs, f < n) :
    resolve ((List.range n).map name) context (fs.map name) = .ok fs := by
  rw [resolve_eq_ok_iff, List.map_map]
  refine List.map_congr_left fun f hf => List.idxOf?_eq_some_iff.2 ⟨?_, ?_, fun j hj hjf => ?_⟩
  · rw [List.length_map, List.length_range]
    exact h f hf
  · rw [List.getElem_map, List.getElem_range]
  · rw [List.getElem_map, List.getElem_range] at hjf
    exact Nat.ne_of_lt hj (hname hjf)

/-- **Actions of different names build as each of them does.** -/
theorem ActionDraft.buildAll_eq_ok {as : List ActionDraft} {bs : List Action}
    (hd : (prior ++ as.map ActionDraft.name).Nodup) (h : List.Forall₂ (fun a b => a.build table = .ok b) as bs) :
    buildAll table prior as = .ok bs := by
  induction h generalizing prior with
  | nil => rfl
  | @cons a b as bs hab _ ih =>
    have hout : a.name ∉ prior := fun ha => (List.nodup_append'.1 hd).2.2 ha List.mem_cons_self
    rw [buildAll, List.idxOf?_eq_none_iff.2 hout]
    refine bind_eq_ok.2 ⟨b, hab, bind_eq_ok.2 ⟨bs, ih ?_, rfl⟩⟩
    rwa [List.append_assoc, List.singleton_append]

end GroundPlanner
