import TallyRules.Config
import TallyRules.Metric
import TallyRules.Operator
import TallyRules.Row
import TallyRules.RuleLine.Scan

/-! # Rows from lines of rules

A rule that a line states is one row of a sheet, or one row for each of the
values that it excludes. Only what is not there cannot be excluded.
-/

namespace TallyRules.RuleLine

def baseRow (columns : Columns) (metric : Metric) (field : String) (operator : Operator) : Row :=
  .ofCells [(columns.metric, .text metric.name), (columns.field, .text field),
    (columns.operator, .text operator.name)]

/-- Why the rule of a line has no rows. -/
def exclusionOfPresence : String := "Exclude cannot be combined with exists"

def toRows (columns : Columns) (metric : Metric) (line : RuleLine) : Except String (List Row) :=
  let row := baseRow columns metric line.column
  match line.keyword, line.comparator, line.values with
  | .unfilter, _, _ => .ok [row .unfilter]
  | .exclude, some .present, _ => .error exclusionOfPresence
  | _, some .present, _ => .ok [row .present]
  | .exclude, _, values =>
    .ok (values.map fun value => (row .exclude).insert columns.value (.text value))
  | .filter, some .equals, [value] => .ok [(row .filter).insert columns.value (.text value)]
  | _, _, values => .ok [(row .contain).insert columns.value (.list values)]

/-- The rows of a line, or why there are none. -/
def read (columns : Columns) (metric : Metric) (line : String) : Except String (List Row) :=
  match scan line.toList with
  | .ok ruleLine => ruleLine.toRows columns metric
  | .error stop => .error (stop.message line)

end TallyRules.RuleLine
