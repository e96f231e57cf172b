import TallyRules.Log
import TallyRules.RuleLine.Rows
import TallyRules.Text.Lines
import TallyRules.Validation

/-! # Sheets of rule lines

A sheet has rows of two cells: a label that names a metric, and a text whose
lines are the rules of that metric. Every line is read on its own. What is made
of a line keeps the metric and the number of the line, so that a row that is
rejected later can be traced back to it.
-/

namespace TallyRules

/-- A row with the metric and the line that it was made of. -/
structure LineRow where
  metric : Metric
  line : Nat
  row : Row
  deriving DecidableEq

structure LineRows where
  rows : List LineRow
  /-- The lines that cannot be read. -/
  errors : List LineError
  deriving DecidableEq

namespace LineRows

def empty : LineRows := ⟨[], []⟩

def append (a b : LineRows) : LineRows :=
  ⟨a.rows ++ b.rows, a.errors ++ b.errors⟩

instance : Append LineRows := ⟨append⟩

@[simp]
theorem rows_append (a b : LineRows) : (a ++ b).rows = a.rows ++ b.rows := rfl

@[simp]
theorem errors_append (a b : LineRows) : (a ++ b).errors = a.errors ++ b.errors := rfl

def ofLine (columns : Columns) (metric : Metric) (number : Nat) (line : String) : LineRows :=
  if Text.isBlank line then empty
  else match RuleLine.read columns metric line with
    | .ok rows => ⟨rows.map fun row => ⟨metric, number, row⟩, []⟩
    | .error message => ⟨[], [⟨metric, number, message⟩]⟩

/-- What is made of lines of which the first has a number. -/
def ofLines (columns : Columns) (metric : Metric) (number : Nat) : List String → LineRows
  | [] => empty
  | line :: lines => ofLine columns metric number line ++ ofLines columns metric (number + 1) lines

def ofText (columns : Columns) (metric : Metric) (text : String) : LineRows :=
  ofLines columns metric 1 (Text.lines text)

def toRows (lineRows : LineRows) : List Row :=
  lineRows.rows.map (·.row)

def locate (lineRows : LineRows) (error : RowError) : Option LineError :=
  lineRows.rows[error.row]?.map fun lineRow =>
    ⟨lineRow.metric, lineRow.line, error.violation.message⟩

/-- All rejected lines: those that cannot be read, and then those of rejected rows. The rows of
one line may be rejected for the same reason, which is reported once. -/
def rejected (lineRows : LineRows) (errors : List RowError) : List LineError :=
  (errors.filterMap lineRows.locate).foldl
    (fun reported error => if error ∈ reported then reported else reported ++ [error])
    lineRows.errors

end LineRows

structure SheetRow where
  label : String
  text : String
  deriving DecidableEq

namespace LineRows

def readText (columns : Columns) (metric : Metric) (text : String) : Logged LineRows := do
  let lineRows := ofText columns metric text
  Logged.logAll (lineRows.errors.map .unreadableLine)
  return lineRows

/-- Reads a row of a sheet, which is skipped if its label names no metric. -/
def readRow (columns : Columns) (sheetRow : SheetRow) : Logged LineRows :=
  match Metric.ofLabel? sheetRow.label with
  | some metric => readText columns metric sheetRow.text
  | none => do
    Logged.log (.skippedLabel (Text.trim sheetRow.label))
    return empty

def readSheet (columns : Columns) : List SheetRow → Logged LineRows
  | [] => return empty
  | sheetRow :: sheet => do
    let here ← readRow columns sheetRow
    let others ← readSheet columns sheet
    return here ++ others

end LineRows

end TallyRules
