import GroundPlanner.Proofs.Comparison.Values
import GroundPlanner.Proofs.Seconds
/-!
# The columns of the table

The cells of a row are filled to the widths of their columns and never cut, so the separators of a row stand where
those of the header do exactly if no cell is wider than its column (`EngineRun.separators_tableRow_iff`): if the plans
have fewer than 1000 actions and the searches take at most 9999.9995 seconds (`Comparison.aligned_iff`).
-/
namespace GroundPlanner

/-- The places of the separators in a line. -/
def separators (line : String) : List Nat :=
  line.toList.findIdxs (· == '|')

namespace Text

variable {s rest : String} {c : Char} {n width : Nat}

theorem length_padRight (width : Nat) (s : String) : (padRight width s).length = max width s.length := by
  rw [padRight, String.length_append, String.length_ofList, List.length_replicate]
  omega

theorem mem_padRight (h : c ∈ (padRight width s).toList) : c ∈ s.toList ∨ c = ' ' := by
  rw [padRight, String.toList_append, List.mem_append, String.toList_ofList] at h
  exact h.imp id List.eq_of_mem_replicate

theorem findIdxs_eq_nil (h : '|' ∉ s.toList) : s.toList.findIdxs (· == '|') n = [] :=
  List.findIdxs_eq_nil_iff.2 fun _ hx => beq_eq_false_iff_ne.2 fun heq => h (heq ▸ hx)

/-- A cell without a separator, and the separator after it. -/
theorem findIdxs_cell (h : '|' ∉ s.toList) : (s ++ " | " ++ rest).toList.findIdxs (· == '|') n =
    (n + s.length + 1) :: rest.toList.findIdxs (· == '|') (n + s.length + 3) := by
  have hsep : " | ".toList.findIdxs (· == '|') (n + s.length) = [n + s.length + 1] := by
    simp
  have hlen : (s ++ " | ").toList.length = s.length + 3 := by
    rw [String.length_toList, String.length_append]
    rfl
  rw [String.toList_append, List.findIdxs_append, hlen, String.toList_append, List.findIdxs_append, findIdxs_eq_nil h,
    String.length_toList, hsep, List.nil_append, List.singleton_append, ← Nat.add_assoc]

end Text

namespace EngineRun

theorem not_mem_cells {r : EngineRun} : ∀ s ∈ r.cells, '|' ∉ s.toList := by
  have hnumeral : ¬ Decimal.IsNumeral '|' := by
    unfold Decimal.IsNumeral
    decide
  have hplan : '|' ∉ r.planCell.toList := by
    unfold planCell
    split
    · rw [String.toList_append, List.mem_append]
      rintro (h | h)
      · exact hnumeral (Text.isNumeral_of_mem_ofNat h)
      · exact absurd h (by decide)
    · decide
  intro s hs
  simp only [cells, List.mem_cons, List.not_mem_nil, or_false] at hs
  rcases hs with rfl | rfl | rfl | rfl | rfl
  · cases r.engine <;> decide
  · unfold status
    split <;> decide
  · exact hplan
  · exact fun h => hnumeral (Decimal.isNumeral_of_mem_fixed _ _ _ h)
  · exact fun h => hnumeral (Text.isNumeral_of_mem_ofNat h)

/-- **The widths of two cells place the separators of a row**; the engine and the status always fit. -/
theorem separators_tableRow (r : EngineRun) : separators r.tableRow =
    [18, 28, 31 + max 11 r.planCell.length, 34 + max 11 r.planCell.length + max 8 r.seconds.length] := by
  have hcell : ∀ width, ∀ s ∈ r.cells, '|' ∉ (Text.padRight width s).toList := by
    intro width s hs h
    rcases Text.mem_padRight h with h | h
    · exact not_mem_cells s hs h
    · cases h
  have hlabel : (Text.padRight 17 r.engine.label).length = 17 := by
    rw [Text.length_padRight]
    cases r.engine <;> rfl
  have hstatus : (Text.padRight 7 r.status).length = 7 := by
    rw [Text.length_padRight]
    unfold status
    split <;> rfl
  change (Text.padRight 17 r.engine.label ++ " | " ++ (Text.padRight 7 r.status ++ " | " ++
    (Text.padRight 11 r.planCell ++ " | " ++ (Text.padRight 8 r.seconds ++ " | " ++
      Text.padRight 0 (Text.ofNat r.work))))).toList.findIdxs (· == '|') = _
  rw [Text.findIdxs_cell (hcell 17 _ (by simp [cells])), Text.findIdxs_cell (hcell 7 _ (by simp [cells])),
    Text.findIdxs_cell (hcell 11 _ (by simp [cells])), Text.findIdxs_cell (hcell 8 _ (by simp [cells])),
    Text.findIdxs_eq_nil (hcell 0 _ (by simp [cells])), hlabel, hstatus, Text.length_padRight, Text.length_padRight]
  simp only [List.cons.injEq, and_true, true_and]
  omega

/-- **The separators stand where those of the header do exactly if the plan and the time fit in their columns.** -/
theorem separators_tableRow_iff (r : EngineRun) :
    separators r.tableRow = [18, 28, 42, 53] ↔ r.planCell.length ≤ 11 ∧ r.seconds.length ≤ 8 := by
  rw [separators_tableRow]
  simp only [List.cons.injEq, and_true, true_and]
  omega

/-- A plan fits in its column if its length has three digits at most. -/
theorem length_planCell_le_iff (r : EngineRun) :
    r.planCell.length ≤ 11 ↔ ∀ plan, r.plan = some plan → plan.length < 1000 := by
  unfold planCell
  cases h : r.plan with
  | none => exact iff_of_true (by decide) nofun
  | some plan =>
    have hdigits := Nat.length_toDigits_le_iff (n := plan.length) (b := 10) (k := 3) (by decide) (by decide)
    have hlen : (Text.ofNat plan.length ++ " actions").length = (Nat.toDigits 10 plan.length).length + 8 := by
      rw [String.length_append, ← String.length_toList, Text.toList_ofNat]
      rfl
    rw [hlen]
    simp only [Option.some.injEq, forall_eq']
    omega

end EngineRun

namespace Comparison

/-- Every line of the table has its separators where the header has them. -/
def Aligned (c : Comparison) : Prop :=
  ∀ header ∈ c.tableLines.head?, ∀ line ∈ c.tableLines, separators line = separators header

/-- **The table is aligned exactly if the plans and the times of both engines fit in their columns.** -/
theorem aligned_iff (c : Comparison) (h : ∀ r ∈ c.runs, r.time.nanos ≤ Duration.longest.nanos) :
    c.Aligned ↔ ∀ r ∈ c.runs, (∀ plan, r.plan = some plan → plan.length < 1000) ∧ r.time.nanos ≤ 9999999500000 := by
  have hheader : separators "Algorithm         | Status  | Plan Length | Time (s) | Nodes/Simulations" =
      [18, 28, 42, 53] := by
    decide
  have hdashes : separators "------------------|---------|-------------|----------|------------------" =
      [18, 28, 42, 53] := by
    decide
  have hrow : ∀ r ∈ c.runs, separators r.tableRow = [18, 28, 42, 53] ↔
      (∀ plan, r.plan = some plan → plan.length < 1000) ∧ r.time.nanos ≤ 9999999500000 := by
    intro r hr
    rw [r.separators_tableRow_iff, r.length_planCell_le_iff, EngineRun.seconds,
      Duration.length_seconds_le_iff (h r hr)]
  simp only [Aligned, tableLines, List.cons_append, List.nil_append, List.head?_cons, Option.mem_def, Option.some.injEq,
    forall_eq', List.forall_mem_cons, List.forall_mem_map, hheader, hdashes, true_and]
  exact forall₂_congr hrow

/-- The longest plan and the longest time that fit. -/
theorem aligned_longest : Comparison.Aligned ⟨"long", .completed .astar (some ⟨List.replicate 999 0⟩) ⟨9999999500000⟩ 1,
    .completed .rollouts none (.ofMillis 250) 100⟩ := by
  have hplan : ∀ plan, some (Plan.mk (List.replicate 999 0)) = some plan → plan.length < 1000 := by
    rintro plan ⟨⟩
    exact Nat.lt_of_le_of_lt (Nat.le_of_eq List.length_replicate) (by decide)
  refine (aligned_iff _ (List.forall_mem_cons.2 ⟨by decide, List.forall_mem_singleton.2 (by decide)⟩)).2 ?_
  exact List.forall_mem_cons.2 ⟨⟨hplan, Nat.le_refl _⟩, List.forall_mem_singleton.2 ⟨nofun, by decide⟩⟩

/-- A search of ten thousand seconds moves the last separator. -/
theorem aligned_slow : ¬ Comparison.Aligned ⟨"slow", .completed .astar (some ⟨[0]⟩) (.ofSeconds 10000) 1,
    .completed .rollouts none (.ofMillis 250) 100⟩ := by
  intro h
  have hrow := h _ rfl _ (List.mem_cons_of_mem _ (List.mem_cons_of_mem _ List.mem_cons_self))
  revert hrow
  decide +kernel

end Comparison
end GroundPlanner
