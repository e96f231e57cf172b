import TallyRules.Proofs.List
import TallyRules.Proofs.RuleLine.Contents
import TallyRules.Proofs.Sheet.Lines
import TallyRules.Proofs.Validation.Batch

/-! # Every line is accounted for

What is made of a sheet is what is made of its lines, one after the other. A
line that is not blank has rows or one error, which depend on nothing but the
line, its metric and the columns. So each row that is rejected later leads back
to the line that it was made of.
-/

namespace TallyRules

/-- A line with rules of a metric, and its number, counted from one. -/
structure SheetLine where
  metric : Metric
  number : Nat
  text : String
  deriving DecidableEq

/-- The lines that are not blank, if the label names a metric. The blank lines are counted. -/
def SheetRow.ruleLines (sheetRow : SheetRow) : List SheetLine :=
  match Metric.ofLabel? sheetRow.label with
  | none => []
  | some metric =>
    (((Text.lines sheetRow.text).zipIdx 1).filter (!Text.isBlank ·.1)).map
      fun entry => ⟨metric, entry.2, entry.1⟩

def SheetLine.ofSheet (sheet : List SheetRow) : List SheetLine :=
  sheet.flatMap SheetRow.ruleLines

variable {columns : Columns} {line : SheetLine} {sheet : List SheetRow}

namespace SheetLine

def made (columns : Columns) (line : SheetLine) : LineRows :=
  .ofLine columns line.metric line.number line.text

/-- What can be made of a line that is not blank. -/
inductive Accounts (columns : Columns) (line : SheetLine) : LineRows → Prop
  /-- A row for each value that the line excludes. -/
  | exclusions {ruleLine rows} (hs : RuleLine.scan line.text.toList = .ok ruleLine)
      (hk : ruleLine.keyword = .exclude)
      (hr : RuleLine.read columns line.metric line.text = .ok rows) (hne : rows ≠ [])
      (hv : rows.map (·.get? columns.value) = ruleLine.values.map (some ∘ Cell.text)) :
      Accounts columns line ⟨rows.map (⟨line.metric, line.number, ·⟩), []⟩
  | row {ruleLine row} (hs : RuleLine.scan line.text.toList = .ok ruleLine)
      (hk : ruleLine.keyword ≠ .exclude)
      (hr : RuleLine.read columns line.metric line.text = .ok [row]) :
      Accounts columns line ⟨[⟨line.metric, line.number, row⟩], []⟩
  | error {message} (hr : RuleLine.read columns line.metric line.text = .error message) :
      Accounts columns line ⟨[], [⟨line.metric, line.number, message⟩]⟩

theorem made_of_ok {rows : List Row} (hb : Text.isBlank line.text = false)
    (hr : RuleLine.read columns line.metric line.text = .ok rows) :
    line.made columns = ⟨rows.map (⟨line.metric, line.number, ·⟩), []⟩ := by
  simp [made, LineRows.ofLine, hb, hr]

theorem made_of_error {message : String} (hb : Text.isBlank line.text = false)
    (hr : RuleLine.read columns line.metric line.text = .error message) :
    line.made columns = ⟨[], [⟨line.metric, line.number, message⟩]⟩ := by
  simp [made, LineRows.ofLine, hb, hr]

theorem accounts_made (hb : Text.isBlank line.text = false) :
    line.Accounts columns (line.made columns) := by
  cases hs : RuleLine.scan line.text.toList with
  | error stop =>
    have hr : RuleLine.read columns line.metric line.text = .error (stop.message line.text) := by
      rw [RuleLine.read, hs]
    rw [made_of_error hb hr]
    exact .error hr
  | ok ruleLine =>
    have hread := RuleLine.read_of_scan hs columns line.metric
    rcases ruleLine.toRows_cases with ⟨-, -, he⟩ | ⟨hk, hc, hr⟩ | ⟨hk, operator, cell, hr⟩
    · have hr := hread.trans (he columns line.metric)
      rw [made_of_error hb hr]
      exact .error hr
    · have hr := hread.trans (hr columns line.metric)
      have hne := (RuleLine.derives_of_scan hs).values_ne_nil hk hc
      rw [made_of_ok hb hr]
      refine .exclusions hs hk hr (by simpa using hne) ?_
      simp [RuleLine.row, Row.get?_insert, Function.comp_def]
    · have hr := hread.trans (hr columns line.metric)
      rw [made_of_ok hb hr]
      exact .row hs hk hr

theorem tags_made {lineRow : LineRow} (h : lineRow ∈ (line.made columns).rows) :
    lineRow.metric = line.metric ∧ lineRow.line = line.number := by
  unfold made LineRows.ofLine at h
  split at h
  · cases h
  · split at h
    · obtain ⟨row, -, rfl⟩ := List.mem_map.mp h
      exact ⟨rfl, rfl⟩
    · cases h

theorem not_blank_of_mem (h : line ∈ ofSheet sheet) : Text.isBlank line.text = false := by
  obtain ⟨sheetRow, -, hl⟩ := List.mem_flatMap.mp h
  unfold SheetRow.ruleLines at hl
  split at hl
  · cases hl
  · obtain ⟨entry, he, rfl⟩ := List.mem_map.mp hl
    simpa using List.of_mem_filter he

end SheetLine

namespace LineRows

section Parts

variable {α : Type} {f : LineRows → List α}

theorem part_readRow (hempty : f empty = []) (happend : ∀ a b, f (a ++ b) = f a ++ f b)
    (sheetRow : SheetRow) :
    f (readRow columns sheetRow).value =
      sheetRow.ruleLines.flatMap fun line => f (line.made columns) := by
  unfold readRow SheetRow.ruleLines
  cases Metric.ofLabel? sheetRow.label with
  | none => exact hempty
  | some metric =>
    have hread : (readText columns metric sheetRow.text).value =
        ofLines columns metric 1 (Text.lines sheetRow.text) := rfl
    dsimp only
    rw [hread, part_ofLines hempty happend, List.flatMap_map]
    refine (flatMap_filter_of_nil (fun entry hb => ?_) _).symm
    rw [ofLine, if_pos (by simpa using hb), hempty]

theorem part_readSheet_ofSheet (hempty : f empty = []) (happend : ∀ a b, f (a ++ b) = f a ++ f b)
    (sheet : List SheetRow) :
    f (readSheet columns sheet).value =
      (SheetLine.ofSheet sheet).flatMap fun line => f (line.made columns) := by
  rw [part_readSheet hempty happend, SheetLine.ofSheet, List.flatMap_assoc]
  simp only [part_readRow hempty happend]

end Parts

def tags (lineRows : LineRows) : List (Metric × Nat) :=
  lineRows.rows.map fun lineRow => (lineRow.metric, lineRow.line)

theorem toRows_append (a b : LineRows) : (a ++ b).toRows = a.toRows ++ b.toRows :=
  List.map_append

theorem tags_append (a b : LineRows) : (a ++ b).tags = a.tags ++ b.tags :=
  List.map_append

/-- What is made of lines, in three lists of which each grows on its own. -/
structure Lists where
  rows : List Row
  tags : List (Metric × Nat)
  errors : List LineError

namespace Lists

def add (columns : Columns) (lists : Lists) (line : SheetLine) : Lists :=
  match RuleLine.read columns line.metric line.text with
  | .ok rows => { lists with
      rows := lists.rows ++ rows
      tags := lists.tags ++ List.replicate rows.length (line.metric, line.number) }
  | .error message => { lists with
      errors := lists.errors ++ [⟨line.metric, line.number, message⟩] }

theorem add_eq (lists : Lists) (hb : Text.isBlank line.text = false) :
    lists.add columns line = ⟨lists.rows ++ (line.made columns).toRows,
      lists.tags ++ (line.made columns).tags, lists.errors ++ (line.made columns).errors⟩ := by
  unfold add
  cases hr : RuleLine.read columns line.metric line.text with
  | ok rows =>
    rw [SheetLine.made_of_ok hb hr]
    simp [toRows, LineRows.tags, Function.comp_def, List.map_const']
  | error message =>
    rw [SheetLine.made_of_error hb hr]
    simp [toRows, LineRows.tags]

theorem foldl_add {lines : List SheetLine} (hb : ∀ line ∈ lines, Text.isBlank line.text = false)
    (lists : Lists) :
    lines.foldl (add columns) lists =
      ⟨lists.rows ++ lines.flatMap fun line => (line.made columns).toRows,
        lists.tags ++ lines.flatMap fun line => (line.made columns).tags,
        lists.errors ++ lines.flatMap fun line => (line.made columns).errors⟩ := by
  induction lines generalizing lists with
  | nil => simp
  | cons line lines ih =>
    obtain ⟨hline, hlines⟩ := List.forall_mem_cons.mp hb
    simp only [List.foldl_cons, ih hlines, add_eq lists hline, List.flatMap_cons,
      List.append_assoc]

theorem foldl_add_ofSheet (columns : Columns) (sheet : List SheetRow) :
    (SheetLine.ofSheet sheet).foldl (add columns) ⟨[], [], []⟩ =
      ⟨(readSheet columns sheet).value.toRows, (readSheet columns sheet).value.tags,
        (readSheet columns sheet).value.errors⟩ := by
  rw [foldl_add fun line hl => SheetLine.not_blank_of_mem hl,
    ← part_readSheet_ofSheet rfl toRows_append, ← part_readSheet_ofSheet rfl tags_append,
    ← part_readSheet_ofSheet rfl errors_append]
  rfl

end Lists

/-- What is made of a sheet is what is made of its lines, in their order: of each line that is not
blank, and whose metric is named, rows or one error. The error of a row that is rejected leads back
to the line among whose rows it has its place. -/
theorem readSheet_accounts (columns : Columns) (sheet : List SheetRow) :
    let lineRows := (readSheet columns sheet).value
    let lines := SheetLine.ofSheet sheet
    lines.foldl (Lists.add columns) ⟨[], [], []⟩ =
        ⟨lineRows.toRows, lineRows.tags, lineRows.errors⟩ ∧
      lineRows.toRows.length = lineRows.tags.length ∧
      lineRows.rows = lines.flatMap (fun line => (line.made columns).rows) ∧
      lineRows.errors = lines.flatMap (fun line => (line.made columns).errors) ∧
      (∀ line ∈ lines, line.Accounts columns (line.made columns)) ∧
      ∀ others, ∀ error ∈ (validate others lineRows.toRows).value.errors,
        ∃ i line j row, lines[i]? = some line ∧
          error.row = ((lines.take i).flatMap fun line => (line.made columns).rows).length + j ∧
          (line.made columns).rows[j]? = some ⟨line.metric, line.number, row⟩ ∧
          row.toRule others = .error error.violation ∧
          lineRows.locate error = some ⟨line.metric, line.number, error.violation.message⟩ := by
  intro lineRows lines
  have hrows : lineRows.rows = lines.flatMap fun line => (line.made columns).rows :=
    part_readSheet_ofSheet rfl rows_append sheet
  refine ⟨Lists.foldl_add_ofSheet columns sheet, by simp [toRows, tags], hrows,
    part_readSheet_ofSheet rfl errors_append sheet,
    fun line hl => SheetLine.accounts_made (SheetLine.not_blank_of_mem hl), ?_⟩
  intro others error he
  obtain ⟨row, hrow, hviolation⟩ := Validation.mem_errorsFrom_zero_iff.mp he
  rw [toRows, List.getElem?_map] at hrow
  obtain ⟨⟨metric, number, row⟩, hplace, rfl⟩ := Option.map_eq_some_iff.mp hrow
  have hlocate : lineRows.locate error = some ⟨metric, number, error.violation.message⟩ := by
    rw [locate, hplace]
    rfl
  rw [hrows] at hplace
  obtain ⟨i, line, j, hi, hj, hline⟩ := exists_getElem?_of_flatMap hplace
  obtain ⟨rfl, rfl⟩ : metric = line.metric ∧ number = line.number :=
    SheetLine.tags_made (List.mem_of_getElem? hline)
  exact ⟨i, line, j, row, hi, hj, hline, hviolation, hlocate⟩

/-- Of three sheet rows the first names no metric. The second has a blank line, two exclusions in a
line and a line that cannot be read, and the third a row that is rejected. -/
theorem readSheet_accounts_notes :
    let sheet : List SheetRow := [⟨"Notes", "Filter column \"x\" = \"1\""⟩,
      ⟨"Numerator", "\nExclude column \"s\" in \"a\", \"b\"\n?"⟩,
      ⟨"denominator ", " \n\nFilter column \"y\" = \"\""⟩]
    let lineRows := (readSheet {} sheet).value
    let error : RowError := ⟨2, .missingValue .filter⟩
    lineRows.tags = [(.numerator, 2), (.numerator, 2), (.denominator, 3)] ∧
      error ∈ (validate {} lineRows.toRows).value.errors ∧
      ∃ line ∈ SheetLine.ofSheet sheet,
        lineRows.locate error = some ⟨line.metric, line.number, "Filter requires a value"⟩ := by
  intro sheet lineRows error
  have htags : lineRows.tags = [(.numerator, 2), (.numerator, 2), (.denominator, 3)] := by
    decide +kernel
  have he : error ∈ (validate {} lineRows.toRows).value.errors := by decide +kernel
  obtain ⟨-, -, -, -, -, hlocate⟩ := readSheet_accounts {} sheet
  obtain ⟨_, line, _, _, hi, -, -, -, hl⟩ := hlocate {} error he
  exact ⟨htags, he, line, List.mem_of_getElem? hi, hl⟩

end LineRows

end TallyRules
