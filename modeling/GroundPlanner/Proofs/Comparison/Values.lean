import GroundPlanner.Comparison.Report
import GroundPlanner.Proofs.Numerals
/-!
# Reading comma-separated values

No field of a report contains a comma or the end of a line, so a line falls back into its fields, and the report into
its lines (`Comparison.splitOn_csv`).  What the fields say of a run is read back (`CsvRecord.read?_csvRow`): its engine,
the length of its plan, its work, and whether it has a plan at all.
-/
namespace GroundPlanner

/-! ## Joined texts -/

namespace Text

theorem toList_join (sep : String) (words : List String) :
    (join sep words).toList = sep.toList.intercalate (words.map String.toList) := by
  induction words with
  | nil => rfl
  | cons s rest ih =>
    cases rest with
    | nil => simp [join]
    | cons s' rest =>
      rw [join, String.toList_append, String.toList_append, ih]
      · simp
      · exact List.cons_ne_nil _ _

theorem mem_join {sep : String} {words : List String} {c : Char} (h : c ∈ (join sep words).toList) :
    c ∈ sep.toList ∨ ∃ s ∈ words, c ∈ s.toList := by
  induction words with
  | nil => cases h
  | cons s rest ih =>
    cases rest with
    | nil => exact .inr ⟨s, List.mem_cons_self, h⟩
    | cons s' rest =>
      rw [join, String.toList_append, String.toList_append, List.mem_append, List.mem_append] at h
      · rcases h with (h | h) | h
        · exact .inr ⟨s, List.mem_cons_self, h⟩
        · exact .inl h
        · exact (ih h).imp id fun ⟨t, ht, hc⟩ => ⟨t, List.mem_cons_of_mem s ht, hc⟩
      · exact List.cons_ne_nil _ _

/-- **Words without the separator are the parts of the joined text.** -/
theorem splitOn_join {c : Char} {words : List String} (hne : words ≠ []) (h : ∀ s ∈ words, c ∉ s.toList) :
    (join (String.singleton c) words).toList.splitOn c = words.map String.toList := by
  rw [toList_join, String.toList_singleton]
  refine List.splitOn_intercalate c ?_ (by simpa using hne)
  simpa using h

end Text

/-- **Lines, each closed by its end, fall apart at the ends of lines**, with nothing after the last. -/
theorem splitOn_unlines {lines : List String} (h : ∀ s ∈ lines, '\n' ∉ s.toList) :
    (unlines lines).toList.splitOn '\n' = lines.map String.toList ++ [[]] := by
  induction lines with
  | nil => rfl
  | cons s lines ih =>
    have hcons : (unlines (s :: lines)).toList = s.toList ++ '\n' :: (unlines lines).toList := by
      simp [unlines]
    rw [hcons, List.splitOn_append_cons_self_of_not_mem (h s List.mem_cons_self),
      ih fun s' hs' => h s' (List.mem_cons_of_mem s hs')]
    rfl

/-! ## The characters of a number -/

namespace Decimal

/-- The characters that numbers are written with, those of the special ones included. -/
def IsNumeral (c : Char) : Prop :=
  c.isDigit = true ∨ c ∈ ['-', '.', 'N', 'a', 'i', 'n', 'f']

theorem isNumeral_of_mem_toDigits {n : Nat} {c : Char} (h : c ∈ Nat.toDigits 10 n) : IsNumeral c :=
  .inl (Text.isDigit_of_mem_toDigits h)

theorem isNumeral_of_mem_placed {places n : Nat} {c : Char} (h : c ∈ (placed places n).toList) : IsNumeral c := by
  unfold placed at h
  split at h
  · rw [String.toList_ofList] at h
    exact isNumeral_of_mem_toDigits h
  · rw [String.toList_ofList, List.mem_append, List.mem_cons, List.mem_append] at h
    rcases h with h | rfl | h | h
    · exact isNumeral_of_mem_toDigits h
    · exact .inr (by decide)
    · exact .inl (List.eq_of_mem_replicate h ▸ by decide)
    · exact isNumeral_of_mem_toDigits h

theorem isNumeral_of_mem_signed {negative : Bool} {s : String} (hs : ∀ c ∈ s.toList, IsNumeral c) :
    ∀ c ∈ (signed negative s).toList, IsNumeral c := by
  cases negative with
  | false => exact hs
  | true =>
    intro c hc
    rw [signed, if_pos rfl, String.toList_append, List.mem_append] at hc
    rcases hc with hc | hc
    · exact .inr (List.mem_singleton.1 hc ▸ by decide)
    · exact hs c hc

theorem isNumeral_of_mem_special (b : Binary) : ∀ c ∈ ((special b).getD "").toList, IsNumeral c := by
  have hspecial : ∀ s ∈ ["NaN", "inf", "-inf", ""], s.toList ⊆ ['-', '.', 'N', 'a', 'i', 'n', 'f'] := by
    decide
  cases b with
  | nan => exact fun c hc => .inr (hspecial "NaN" (by decide) hc)
  | infinite negative =>
    cases negative with
    | false => exact fun c hc => .inr (hspecial "inf" (by decide) hc)
    | true => exact fun c hc => .inr (hspecial "-inf" (by decide) hc)
  | finite negative m e => exact fun c hc => .inr (hspecial "" (by decide) hc)

/-- **A decimal is written with the characters of numbers.** -/
theorem isNumeral_of_mem_fixed (places : Nat) (x : Float) : ∀ c ∈ (fixed places x).toList, IsNumeral c := by
  unfold fixed
  split
  · exact isNumeral_of_mem_signed fun c hc => isNumeral_of_mem_placed hc
  · exact isNumeral_of_mem_special _

end Decimal

namespace Text

theorem isNumeral_of_mem_ofNat {n : Nat} {c : Char} (h : c ∈ (ofNat n).toList) : Decimal.IsNumeral c :=
  Decimal.isNumeral_of_mem_toDigits (toList_ofNat n ▸ h)

end Text

/-! ## Rows and their fields -/

namespace EngineRun

def csvFields (r : EngineRun) : List String :=
  [r.engine.csvLabel, Text.ofNat r.planLength, r.seconds, Text.ofNat r.work, if r.success then "1" else "0"]

/-- **No field contains a separator**: labels and flags do not, and the rest are numbers. -/
theorem not_mem_csvFields {r : EngineRun} {c : Char} (hc : c = ',' ∨ c = '\n') : ∀ s ∈ r.csvFields, c ∉ s.toList := by
  have hnumeral : ¬ Decimal.IsNumeral c := by
    unfold Decimal.IsNumeral
    rcases hc with rfl | rfl <;> decide
  have hlabel : c ∉ r.engine.csvLabel.toList := by
    rcases hc with rfl | rfl <;> cases r.engine <;> decide
  have hflag : c ∉ (if r.success then "1" else "0").toList := by
    rcases hc with rfl | rfl <;> cases r.success <;> decide
  intro s hs
  simp only [csvFields, List.mem_cons, List.not_mem_nil, or_false] at hs
  rcases hs with rfl | rfl | rfl | rfl | rfl
  · exact hlabel
  · exact fun h => hnumeral (Text.isNumeral_of_mem_ofNat h)
  · exact fun h => hnumeral (Decimal.isNumeral_of_mem_fixed _ _ c h)
  · exact fun h => hnumeral (Text.isNumeral_of_mem_ofNat h)
  · exact hflag

/-- **A row falls back into its five fields.** -/
theorem splitOn_csvRow (r : EngineRun) : r.csvRow.toList.splitOn ',' = r.csvFields.map String.toList :=
  Text.splitOn_join (List.cons_ne_nil _ _) (not_mem_csvFields (.inl rfl))

theorem newline_not_mem_csvRow (r : EngineRun) : '\n' ∉ r.csvRow.toList := by
  intro h
  rcases Text.mem_join h with h | ⟨s, hs, h⟩
  · exact absurd h (by decide)
  · exact not_mem_csvFields (r := r) (.inr rfl) s hs h

end EngineRun

/-! ## Reading back -/

/-- What a row says of a run besides its time. -/
structure CsvRecord where
  label : String
  planLength : Nat
  work : Nat
  success : Bool
deriving DecidableEq

def EngineRun.csvRecord (r : EngineRun) : CsvRecord :=
  ⟨r.engine.csvLabel, r.planLength, r.work, r.success⟩

namespace CsvRecord

def readFlag? : List Char → Option Bool
  | ['0'] => some false
  | ['1'] => some true
  | _ => none

/-- Reads a row of five fields; the time may be anything. -/
def read? (row : List Char) : Option CsvRecord :=
  match row.splitOn ',' with
  | [label, length, _, work, flag] => do
    let length ← Text.digits? 10 length
    let work ← Text.digits? 10 work
    let flag ← readFlag? flag
    return ⟨String.ofList label, length, work, flag⟩
  | _ => none

/-- Reads the rows between the header and the end. -/
def readAll? (text : List Char) : Option (List CsvRecord) :=
  (text.splitOn '\n').tail.dropLast.mapM read?

theorem digits?_ofNat (n : Nat) : Text.digits? 10 (Text.ofNat n).toList = some n := by
  rw [Text.toList_ofNat, Text.digits?_toDigits]

/-- **A row reads back as what it was written of.** -/
theorem read?_csvRow (r : EngineRun) : read? r.csvRow.toList = some r.csvRecord := by
  have hflag : readFlag? (if r.success then "1" else "0").toList = some r.success := by cases r.success <;> rfl
  rw [read?, r.splitOn_csvRow, EngineRun.csvFields]
  simp [digits?_ofNat, hflag, EngineRun.csvRecord]

end CsvRecord

namespace Comparison

/-- **The lines of a report**: the header and the rows in their order, each closed by its end. -/
theorem splitOn_csv (c : Comparison) : c.csv.toList.splitOn '\n' =
    ["Algorithm,Plan_Length,Time_Seconds,Nodes_Simulations,Success".toList, c.astar.csvRow.toList,
      c.rollouts.csvRow.toList, []] := by
  refine splitOn_unlines fun s hs => ?_
  simp only [runs, List.map_cons, List.map_nil, List.mem_cons, List.not_mem_nil, or_false] at hs
  rcases hs with rfl | rfl | rfl
  · decide
  · exact c.astar.newline_not_mem_csvRow
  · exact c.rollouts.newline_not_mem_csvRow

theorem readAll?_csv (c : Comparison) : CsvRecord.readAll? c.csv.toList = some (c.runs.map EngineRun.csvRecord) := by
  rw [CsvRecord.readAll?, splitOn_csv]
  simp [CsvRecord.read?_csvRow, runs]

/-- **A report in comma-separated values says what it was written of.**  It is the header and a row for each engine, A*
first, each closed by the end of its line, and each line has five fields.  The rows read back as engine, length of the
plan, work and success of their runs, whatever the time.  So reports of one text agree in these, and the row of a plan
without steps is never that of a run without a plan. -/
theorem csv_reads_back (c : Comparison) :
    c.csv.toList.splitOn '\n' =
      ["Algorithm,Plan_Length,Time_Seconds,Nodes_Simulations,Success".toList, c.astar.csvRow.toList,
        c.rollouts.csvRow.toList, []] ∧
    (∀ line ∈ (c.csv.toList.splitOn '\n').dropLast, (line.splitOn ',').length = 5) ∧
    (∀ r ∈ c.runs, CsvRecord.read? r.csvRow.toList = some r.csvRecord) ∧
    CsvRecord.readAll? c.csv.toList = some (c.runs.map EngineRun.csvRecord) ∧
    (∀ c' : Comparison, c'.csv = c.csv →
      c'.astar.csvRecord = c.astar.csvRecord ∧ c'.rollouts.csvRecord = c.rollouts.csvRecord) ∧
    ∀ r r' : EngineRun, r.plan = some .empty → r'.plan = none → r.csvRow ≠ r'.csvRow := by
  have hfields : ∀ r : EngineRun, (r.csvRow.toList.splitOn ',').length = 5 := by
    intro r
    rw [r.splitOn_csvRow, List.length_map]
    rfl
  refine ⟨c.splitOn_csv, fun line hline => ?_, fun r _ => CsvRecord.read?_csvRow r, c.readAll?_csv, fun c' hcsv => ?_,
    fun r r' hplan hnone hrow => ?_⟩
  · simp only [c.splitOn_csv, List.dropLast_cons_cons, List.dropLast_singleton, List.mem_cons, List.not_mem_nil,
      or_false] at hline
    rcases hline with rfl | rfl | rfl
    · decide
    · exact hfields c.astar
    · exact hfields c.rollouts
  · have hrecords : some (c'.runs.map EngineRun.csvRecord) = some (c.runs.map EngineRun.csvRecord) := by
      rw [← readAll?_csv, ← readAll?_csv, hcsv]
    simpa [runs] using hrecords
  · have hrecords : some r.csvRecord = some r'.csvRecord := by
      rw [← CsvRecord.read?_csvRow, ← CsvRecord.read?_csvRow, hrow]
    have hsuccess : r.success = r'.success := congrArg CsvRecord.success (Option.some.inj hrecords)
    rw [EngineRun.success, EngineRun.success, hplan, hnone] at hsuccess
    cases hsuccess

/-- Two comparisons that differ in their names and in the steps of a plan, not in its length; and a problem that was
solved from the start, with a run that found nothing. -/
theorem csv_reads_back_twins : ∃ c c' : Comparison, c ≠ c' ∧ c'.csv = c.csv ∧
    c'.astar.csvRecord = c.astar.csvRecord ∧ c.astar.csvRecord = ⟨"A*", 2, 5, true⟩ ∧
    (EngineRun.completed .astar (some .empty) .zero 1).csvRow ≠ (EngineRun.completed .astar none .zero 1).csvRow := by
  let failed : EngineRun := .completed .rollouts none .zero 9
  let c : Comparison := ⟨"left", .completed .astar (some ⟨[0, 1]⟩) (.ofMillis 1500) 5, failed⟩
  let c' : Comparison := ⟨"right", .completed .astar (some ⟨[2, 3]⟩) (.ofMillis 1500) 5, failed⟩
  obtain ⟨-, -, -, -, htwins, hempty⟩ := c.csv_reads_back
  have hcsv : c'.csv = c.csv := rfl
  exact ⟨c, c', by decide, hcsv, (htwins c' hcsv).1, by decide, hempty _ _ rfl rfl⟩

end Comparison
end GroundPlanner
