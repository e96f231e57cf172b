import Mathlib.Data.List.Nodup
import TallyRules.Sheet

/-! # The lines of a sheet

What is made of a sheet is made of its lines, each on its own, with the metric
and the number of the line: rows, the errors of lines that cannot be read, and
the rejections of rows. A rejected row is traced back to its line.
-/

namespace TallyRules

variable {columns : Columns} {metric : Metric}

def SheetRow.line? (sheetRow : SheetRow) (metric : Metric) (number : Nat) : Option String :=
  if Metric.ofLabel? sheetRow.label = some metric ∧ 1 ≤ number then
    (Text.lines sheetRow.text)[number - 1]?
  else none

theorem SheetRow.line?_eq_some_iff {sheetRow : SheetRow} {number : Nat} {line : String} :
    sheetRow.line? metric number = some line ↔ Metric.ofLabel? sheetRow.label = some metric ∧
      (line, number) ∈ (Text.lines sheetRow.text).zipIdx 1 := by
  rw [List.mem_zipIdx_iff_le_and_getElem?_sub, ← and_assoc, line?]
  split <;> simp_all

namespace RuleLine

/-- Why a line cannot be read, if it cannot. A blank line is not read. -/
def fault? (columns : Columns) (metric : Metric) (line : String) : Option String :=
  if Text.isBlank line then none
  else match read columns metric line with
    | .ok _ => none
    | .error message => some message

end RuleLine

def Row.rejection? (columns : Columns) (row : Row) : Option String :=
  match row.toRule columns with
  | .ok _ => none
  | .error violation => some violation.message

def RuleLine.rejections (columns : Columns) (metric : Metric) (line : String) : List String :=
  if Text.isBlank line then []
  else match read columns metric line with
    | .ok rows => rows.filterMap (Row.rejection? columns)
    | .error _ => []

namespace SheetRow

/-- The sheet row has a line that cannot be read, for the reason that the error gives. -/
def Unreadable (columns : Columns) (error : LineError) (sheetRow : SheetRow) : Prop :=
  ∃ line ∈ sheetRow.line? error.metric error.line,
    RuleLine.fault? columns error.metric line = some error.message

/-- The sheet row has a line of which a row is rejected, for the reason that the error gives. -/
def Rejected (columns : Columns) (error : LineError) (sheetRow : SheetRow) : Prop :=
  ∃ line ∈ sheetRow.line? error.metric error.line,
    error.message ∈ RuleLine.rejections columns error.metric line

instance (columns : Columns) (error : LineError) (sheetRow : SheetRow) :
    Decidable (sheetRow.Unreadable columns error) :=
  inferInstanceAs (Decidable (∃ line ∈ sheetRow.line? _ _, _))

instance (columns : Columns) (error : LineError) (sheetRow : SheetRow) :
    Decidable (sheetRow.Rejected columns error) :=
  inferInstanceAs (Decidable (∃ line ∈ sheetRow.line? _ _, _))

end SheetRow

namespace LineRows

section Parts

variable {α : Type} {f : LineRows → List α}

/-- A part of what is made of lines is made line by line. -/
theorem part_ofLines (hempty : f empty = []) (happend : ∀ a b, f (a ++ b) = f a ++ f b)
    (number : Nat) (lines : List String) :
    f (ofLines columns metric number lines) =
      (lines.zipIdx number).flatMap fun entry => f (ofLine columns metric entry.2 entry.1) := by
  induction lines generalizing number with
  | nil => exact hempty
  | cons line lines ih => rw [ofLines, happend, ih, List.zipIdx_cons, List.flatMap_cons]

theorem mem_ofLines_iff (hempty : f empty = []) (happend : ∀ a b, f (a ++ b) = f a ++ f b)
    {number : Nat} {lines : List String} {x : α} :
    x ∈ f (ofLines columns metric number lines) ↔
      ∃ entry ∈ lines.zipIdx number, x ∈ f (ofLine columns metric entry.2 entry.1) := by
  rw [part_ofLines hempty happend, List.mem_flatMap]

theorem part_readSheet (hempty : f empty = []) (happend : ∀ a b, f (a ++ b) = f a ++ f b)
    (sheet : List SheetRow) :
    f (readSheet columns sheet).value =
      sheet.flatMap fun sheetRow => f (readRow columns sheetRow).value := by
  induction sheet with
  | nil => exact hempty
  | cons sheetRow sheet ih =>
    rw [readSheet, Logged.value_bind, Logged.value_bind, List.flatMap_cons, ← ih]
    exact happend _ _

theorem mem_readRow_iff (hempty : f empty = []) (happend : ∀ a b, f (a ++ b) = f a ++ f b)
    {sheetRow : SheetRow} {x : α} :
    x ∈ f (readRow columns sheetRow).value ↔ ∃ metric number line,
      sheetRow.line? metric number = some line ∧ x ∈ f (ofLine columns metric number line) := by
  simp only [SheetRow.line?_eq_some_iff]
  unfold readRow
  cases hm : Metric.ofLabel? sheetRow.label with
  | none => simp [hempty]
  | some metric =>
    have hread : (readText columns metric sheetRow.text).value =
        ofLines columns metric 1 (Text.lines sheetRow.text) := rfl
    dsimp only
    rw [hread, mem_ofLines_iff hempty happend]
    constructor
    · rintro ⟨⟨line, number⟩, hl, hx⟩
      exact ⟨metric, number, line, ⟨rfl, hl⟩, hx⟩
    · rintro ⟨_, number, line, ⟨⟨⟩, hl⟩, hx⟩
      exact ⟨(line, number), hl, hx⟩

theorem mem_readSheet_iff (hempty : f empty = []) (happend : ∀ a b, f (a ++ b) = f a ++ f b)
    {sheet : List SheetRow} {x : α} :
    x ∈ f (readSheet columns sheet).value ↔
      ∃ sheetRow ∈ sheet, x ∈ f (readRow columns sheetRow).value := by
  rw [part_readSheet hempty happend, List.mem_flatMap]

end Parts

section Errors

variable {error : LineError}

theorem errors_ofLine (metric : Metric) (number : Nat) (line : String) :
    (ofLine columns metric number line).errors =
      (RuleLine.fault? columns metric line).toList.map
        fun message => ⟨metric, number, message⟩ := by
  unfold ofLine RuleLine.fault?
  split
  · rfl
  · cases RuleLine.read columns metric line <;> rfl

theorem mem_errors_readRow_iff {sheetRow : SheetRow} :
    error ∈ (readRow columns sheetRow).value.errors ↔ sheetRow.Unreadable columns error := by
  rw [mem_readRow_iff rfl errors_append]
  simp only [errors_ofLine, List.mem_map, Option.mem_toList]
  constructor
  · rintro ⟨metric, number, line, hl, message, hm, rfl⟩
    exact ⟨line, hl, hm⟩
  · rintro ⟨line, hl, hm⟩
    exact ⟨_, _, line, hl, _, hm, rfl⟩

theorem nodup_errors_ofLines (number : Nat) (lines : List String) :
    (ofLines columns metric number lines).errors.Nodup := by
  induction lines generalizing number with
  | nil => exact List.nodup_nil
  | cons line lines ih =>
    rw [ofLines, errors_append, List.nodup_append]
    refine ⟨?_, ih (number + 1), ?_⟩
    · rw [errors_ofLine]
      cases RuleLine.fault? columns metric line <;> simp
    -- the lines that follow have greater numbers
    · rintro a ha _ hb rfl
      obtain ⟨⟨other, n⟩, hn, hother⟩ := (mem_ofLines_iff rfl errors_append).mp hb
      rw [errors_ofLine, List.mem_map] at ha hother
      obtain ⟨_, -, rfl⟩ := ha
      obtain ⟨_, -, he⟩ := hother
      have hle := (List.mem_zipIdx_iff_le_and_getElem?_sub.mp hn).1
      have heq : n = number := congrArg LineError.line he
      omega

/-- The sheet rows with a line that cannot be read are counted by their errors. -/
theorem count_errors_readSheet (sheet : List SheetRow) :
    (readSheet columns sheet).value.errors.count error =
      sheet.countP (·.Unreadable columns error) := by
  induction sheet with
  | nil => rfl
  | cons sheetRow sheet ih =>
    have hnodup : (readRow columns sheetRow).value.errors.Nodup := by
      unfold readRow
      split
      · exact nodup_errors_ofLines 1 _
      · exact List.nodup_nil
    have happend : (readSheet columns (sheetRow :: sheet)).value.errors =
        (readRow columns sheetRow).value.errors ++ (readSheet columns sheet).value.errors := rfl
    rw [happend, List.count_append, ih, List.countP_cons, List.Nodup.count hnodup, Nat.add_comm]
    simp [mem_errors_readRow_iff]

end Errors

section Rejections

variable {error : LineError}

def rejection? (columns : Columns) (lineRow : LineRow) : Option LineError :=
  (lineRow.row.rejection? columns).map fun message => ⟨lineRow.metric, lineRow.line, message⟩

def rejections (columns : Columns) (lineRows : LineRows) : List LineError :=
  lineRows.rows.filterMap (rejection? columns)

theorem rejections_append (a b : LineRows) :
    (a ++ b).rejections columns = a.rejections columns ++ b.rejections columns :=
  List.filterMap_append

theorem rejections_ofLine (metric : Metric) (number : Nat) (line : String) :
    (ofLine columns metric number line).rejections columns =
      (RuleLine.rejections columns metric line).map fun message => ⟨metric, number, message⟩ := by
  unfold ofLine RuleLine.rejections
  split
  · rfl
  · cases RuleLine.read columns metric line with
    | error message => rfl
    | ok rows =>
      rw [rejections, List.filterMap_map, List.map_filterMap]
      rfl

theorem mem_rejections_readRow_iff {sheetRow : SheetRow} :
    error ∈ (readRow columns sheetRow).value.rejections columns ↔
      sheetRow.Rejected columns error := by
  rw [mem_readRow_iff rfl rejections_append]
  simp only [rejections_ofLine, List.mem_map]
  constructor
  · rintro ⟨metric, number, line, hl, message, hm, rfl⟩
    exact ⟨line, hl, hm⟩
  · rintro ⟨line, hl, hm⟩
    exact ⟨_, _, line, hl, _, hm, rfl⟩

theorem mem_rejections_readSheet_iff {sheet : List SheetRow} :
    error ∈ (readSheet columns sheet).value.rejections columns ↔
      ∃ sheetRow ∈ sheet, sheetRow.Rejected columns error := by
  rw [mem_readSheet_iff (f := rejections columns) rfl rejections_append]
  simp only [mem_rejections_readRow_iff]

/-- The errors of the last rows are traced back if those of the rows before them are not in the
way. -/
theorem map_locate_errorsFrom (before after : List LineRow) (errors : List LineError) :
    (Validation.errorsFrom columns before.length (after.map LineRow.row)).map
        (locate ⟨before ++ after, errors⟩) =
      (after.filterMap (rejection? columns)).map some := by
  induction after generalizing before with
  | nil => rfl
  | cons lineRow after ih =>
    have hrest := ih (before ++ [lineRow])
    rw [List.length_append, List.length_singleton, List.append_assoc,
      List.singleton_append] at hrest
    rw [List.map_cons, Validation.errorsFrom, List.filterMap_cons, rejection?, Row.rejection?]
    cases lineRow.row.toRule columns with
    | ok rule => exact hrest
    | error violation =>
      have hlocate : locate ⟨before ++ lineRow :: after, errors⟩ ⟨before.length, violation⟩ =
          some ⟨lineRow.metric, lineRow.line, violation.message⟩ := by
        simp [locate]
      rw [List.map_cons, hlocate, hrest]
      rfl

theorem map_locate (columns : Columns) (lineRows : LineRows) :
    (Validation.errorsFrom columns 0 lineRows.toRows).map lineRows.locate =
      (lineRows.rejections columns).map some :=
  map_locate_errorsFrom [] lineRows.rows lineRows.errors

end Rejections

end LineRows

end TallyRules
