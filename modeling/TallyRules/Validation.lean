import TallyRules.Config
import TallyRules.Log
import TallyRules.Row
import TallyRules.Rule

/-! # Rules from rows

A row is checked column by column: metric, field, operator, and the value that
the operator needs. The first requirement that it violates rejects it. Of
several rows each becomes a rule or an error, and a rejected row does not
disturb the others.
-/

namespace TallyRules

namespace Row

/-- The cell of a column that a rule must have. -/
def require (row : Row) (column : String) : Except Violation Cell :=
  match row.get? column with
  | some cell => .ok cell
  | none => .error (.missingColumn column)

end Row

namespace Cell

def nonBlankItems (items : List String) : List Value :=
  ((items.map Text.trim).filter (· ≠ "")).map .string

def splitAtCommas (s : String) : List String :=
  (s.toList.splitOn ',').map String.ofList

/-- The values in a cell. A text is a list of parts between commas. -/
def values : Cell → List Value
  | text s => nonBlankItems (splitAtCommas s)
  | list items => nonBlankItems items
  | number x => [.ofNumber x]
  | bool b => [.bool b]

def singleValue (operator : Operator) : Option Cell → Except Violation Value
  | none => .error (.missingValue operator)
  | some cell =>
    if cell.isBlank then .error (.missingValue operator)
    else match cell with
      | text s => .ok (.string (Text.trim s))
      | number x => .ok (.ofNumber x)
      | bool b => .ok (.bool b)
      | list items =>
        match nonBlankItems items with
        | [value] => .ok value
        | values => .error (.unexpectedList operator values.length)

/-- The values that an operator takes, at least one. -/
def valueList (operator : Operator) : Option Cell → Except Violation (List Value)
  | none => .error (.missingValue operator)
  | some cell =>
    if cell.values = [] then .error (.emptyValueList operator) else .ok cell.values

end Cell

/-- An operator with its values from the value cell, if there is one. -/
def Constraint.ofCell (cell : Option Cell) : Operator → Except Violation Constraint
  | .filter => .filter <$> Cell.singleValue .filter cell
  | .exclude => .exclude <$> Cell.singleValue .exclude cell
  | .contain => .contain <$> Cell.valueList .contain cell
  | .unfilter => .ok .unfilter
  | .present => .ok .present

/-- The rule in a row, or the first requirement that the row violates. -/
def Row.toRule (columns : Columns) (row : Row) : Except Violation Rule := do
  let metricLabel := (← row.require columns.metric).label
  let some metric := Metric.ofLabel? metricLabel | throw (.unknownMetric metricLabel)
  let field := (← row.require columns.field).label
  if field = "" then throw .emptyField
  let operatorLabel := (← row.require columns.operator).label
  let some operator := Operator.ofLabel? operatorLabel | throw (.unknownOperator operatorLabel)
  let constraint ← Constraint.ofCell (row.get? columns.value) operator
  return ⟨metric, field, constraint⟩

structure Validation where
  rules : RuleSet
  /-- The rejected rows, in the order of the sheet. -/
  errors : List RowError
  deriving DecidableEq

namespace Validation

def isClean (v : Validation) : Bool :=
  v.errors.isEmpty

def rulesOf (columns : Columns) (rows : List Row) : List Rule :=
  rows.filterMap fun row => (row.toRule columns).toOption

/-- The errors of rows of which the first is at position `i`. -/
def errorsFrom (columns : Columns) (i : Nat) : List Row → List RowError
  | [] => []
  | row :: rows =>
    match row.toRule columns with
    | .ok _ => errorsFrom columns (i + 1) rows
    | .error violation => ⟨i, violation⟩ :: errorsFrom columns (i + 1) rows

end Validation

def validate (columns : Columns) (rows : List Row) : Logged Validation := do
  let rules := RuleSet.ofList (Validation.rulesOf columns rows)
  let errors := Validation.errorsFrom columns 0 rows
  Logged.logAll (errors.map .rejectedRow)
  Logged.log (.checkedRows rules.size errors.length)
  return ⟨rules, errors⟩

end TallyRules
