import TallyRules.Generation
import TallyRules.Proofs.RuleLine.Contents
import TallyRules.Proofs.Sheet.Accounting

/-! # The names of the columns

Lines are made into rows under the names of the columns, and the rows are read
under the same names. So the names do not show in what comes of a sheet of
lines, as long as they are told apart.
-/

namespace TallyRules

variable {columns others : Columns}

namespace LineRows

theorem locate_eq (lineRows : LineRows) (error : RowError) :
    lineRows.locate error =
      lineRows.tags[error.row]?.map fun tag => ⟨tag.1, tag.2, error.violation.message⟩ := by
  rw [locate, tags, List.getElem?_map, Option.map_map]
  rfl

/-- What is made of lines under some names of columns and under others: of the same lines, rows
that are read alike, and the same errors. -/
structure Agree (columns others : Columns) (a b : LineRows) : Prop where
  tags : a.tags = b.tags
  readings : a.toRows.map (Row.toRule columns) = b.toRows.map (Row.toRule others)
  errors : a.errors = b.errors

namespace Agree

variable {a b : LineRows}

theorem empty : Agree columns others .empty .empty :=
  ⟨rfl, rfl, rfl⟩

theorem append (h : Agree columns others a b) {c d : LineRows} (ht : Agree columns others c d) :
    Agree columns others (a ++ c) (b ++ d) where
  tags := by rw [tags_append, tags_append, h.tags, ht.tags]
  readings := by
    rw [toRows_append, toRows_append, List.map_append, List.map_append, h.readings, ht.readings]
  errors := by rw [errors_append, errors_append, h.errors, ht.errors]

theorem rejected_eq (h : Agree columns others a b) (errors : List RowError) :
    a.rejected errors = b.rejected errors := by
  have hlocate : a.locate = b.locate := funext fun error => by rw [locate_eq, locate_eq, h.tags]
  rw [rejected, rejected, hlocate, h.errors]

end Agree

section Distinct

variable (h : columns.Distinct) (ho : others.Distinct)

include h ho

theorem agree_ofLine (metric : Metric) (number : Nat) (line : String) :
    Agree columns others (ofLine columns metric number line)
      (ofLine others metric number line) := by
  unfold ofLine
  split
  · exact .empty
  · rcases RuleLine.read_cases metric line with ⟨message, he⟩ | ⟨field, contents, hr⟩
    · rw [he, he]
      exact ⟨rfl, rfl, rfl⟩
    · rw [hr, hr]
      -- the names show in the rows, but not in what they are read as
      constructor <;> simp [tags, toRows, RuleLine.toRule_row, h, ho]

theorem agree_ofLines (metric : Metric) (number : Nat) (lines : List String) :
    Agree columns others (ofLines columns metric number lines)
      (ofLines others metric number lines) := by
  induction lines generalizing number with
  | nil => exact .empty
  | cons line lines ih => exact (agree_ofLine h ho metric number line).append (ih (number + 1))

theorem agree_readRow (sheetRow : SheetRow) :
    Agree columns others (readRow columns sheetRow).value (readRow others sheetRow).value ∧
      (readRow columns sheetRow).events = (readRow others sheetRow).events := by
  unfold readRow
  cases Metric.ofLabel? sheetRow.label with
  | none => exact ⟨.empty, rfl⟩
  | some metric =>
    have hlines := agree_ofLines h ho metric 1 (Text.lines sheetRow.text)
    refine ⟨hlines, ?_⟩
    simp only [readText, ofText, Logged.events_bind, Logged.events_logAll, hlines.errors,
      Logged.events_pure]

theorem agree_readSheet (sheet : List SheetRow) :
    Agree columns others (readSheet columns sheet).value (readSheet others sheet).value ∧
      (readSheet columns sheet).events = (readSheet others sheet).events := by
  induction sheet with
  | nil => exact ⟨.empty, rfl⟩
  | cons sheetRow sheet ih =>
    obtain ⟨hrow, hevents⟩ := agree_readRow h ho sheetRow
    refine ⟨hrow.append ih.1, ?_⟩
    simp only [readSheet, Logged.events_bind, Logged.events_pure, hevents, ih.2]

end Distinct

/-- No row of a line lacks a column. -/
theorem toRule_ne_missingColumn (h : columns.Distinct) {sheet : List SheetRow} {row : Row}
    (hr : row ∈ (readSheet columns sheet).value.toRows) (column : String) :
    row.toRule columns ≠ .error (.missingColumn column) := by
  rw [part_readSheet_ofSheet rfl toRows_append, List.mem_flatMap] at hr
  obtain ⟨line, hl, hr⟩ := hr
  have hb := SheetLine.not_blank_of_mem hl
  rcases RuleLine.read_cases line.metric line.text with ⟨message, he⟩ | ⟨field, contents, hread⟩
  · rw [SheetLine.made_of_error hb (he columns)] at hr
    cases hr
  · rw [SheetLine.made_of_ok hb (hread columns)] at hr
    obtain ⟨content, -, rfl⟩ : ∃ content ∈ contents,
        RuleLine.row columns line.metric field content.1 content.2 = row := by
      simpa [toRows] using hr
    exact RuleLine.toRule_row_ne_missingColumn h line.metric field content.1 content.2 column

end LineRows

namespace Config

/-- The names of the columns do not show in what comes of a sheet of lines, nor in the log. No row
of a line is rejected because a column is missing. -/
theorem generateFromLines_columns (config : Config) (h : columns.Distinct) (ho : others.Distinct)
    (sheet : List SheetRow) :
    ({ config with columns := columns } : Config).generateFromLines sheet =
        ({ config with columns := others } : Config).generateFromLines sheet ∧
      ∀ row ∈ (LineRows.readSheet columns sheet).value.toRows, ∀ column,
        row.toRule columns ≠ .error (.missingColumn column) := by
  refine ⟨?_, fun row hr column => LineRows.toRule_ne_missingColumn h hr column⟩
  obtain ⟨hlines, hevents⟩ := LineRows.agree_readSheet h ho sheet
  unfold generateFromLines
  refine Logged.bind_congr hevents ?_
  simp only [Validation.validate_congr hlines.readings, hlines.rejected_eq]
  rfl

/-- Columns of which two differ in the case of a letter that is not ASCII and one has no name, and
columns with the names that others have by default. -/
theorem generateFromLines_columns_renamed :
    let columns : Columns := ⟨"", " ÉTAT ", "état", "\tWert"⟩
    let others : Columns := ⟨"metric", "FIELD", "operator", " Value"⟩
    let sheet : List SheetRow := [⟨"Numerator", "Unfilter column \"x\"\nFilter \"x\" = \"1\""⟩,
      ⟨"Denominator", "Exclude column \"x\" in \"\", \"y\""⟩]
    generateFromLines { columns } sheet = generateFromLines { columns := others } sheet ∧
      (∀ row ∈ (LineRows.readSheet columns sheet).value.toRows,
        row.toRule columns ≠ .error (.missingColumn "")) ∧
      (generateFromLines { columns } sheet).value.toOption.map
          (fun generation => (generation.rules.size, generation.lineErrors.length)) =
        some (2, 2) := by
  intro columns others sheet
  have h : columns.Distinct := by decide +kernel
  have ho : others.Distinct := by decide +kernel
  obtain ⟨hsame, hpresent⟩ := generateFromLines_columns {} h ho sheet
  refine ⟨hsame, fun row hr => hpresent row hr "", ?_⟩
  decide +kernel

/-- The value takes the place of the field if they share a column. -/
example :
    let sheet : List SheetRow := [⟨"Numerator", "Filter column \"a\" = \"1\""⟩]
    (generateFromLines { columns := ⟨"x", "y", " X", "z"⟩ } sheet).value ≠
      (generateFromLines {} sheet).value := by
  decide +kernel

end Config

end TallyRules
