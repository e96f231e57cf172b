import TallyRules.Metric
import TallyRules.Operator

/-! # Rejected rows and lines

A row is rejected for the first requirement that it violates, and a line of
rules because it cannot be read or because a row made from it is rejected.
-/

namespace TallyRules

/-- The requirement that a row violates. -/
inductive Violation
  | missingColumn (column : String)
  | emptyField
  | unknownOperator (found : String)
  | unknownMetric (found : String)
  | missingValue (operator : Operator)
  | unexpectedList (operator : Operator) (count : Nat)
  | emptyValueList (operator : Operator)
  deriving DecidableEq

def Violation.message : Violation → String
  | missingColumn column => "missing column '" ++ column ++ "'"
  | emptyField => "field is empty"
  | unknownOperator found => "unknown operator '" ++ found ++ "'"
  | unknownMetric found => "unknown metric '" ++ found ++ "'; expected numerator or denominator"
  | missingValue operator => operator.name ++ " requires a value"
  | unexpectedList operator count =>
    operator.name ++ " takes a single value, got " ++ toString count
  | emptyValueList operator => operator.name ++ " requires a non-empty list of values"

/-- A rejected row, by its position counted from zero. -/
structure RowError where
  row : Nat
  violation : Violation
  deriving DecidableEq

def RowError.message (error : RowError) : String :=
  "invalid rule at row " ++ toString error.row ++ ": " ++ error.violation.message

/-- A rejected line of the rules of a metric, by its number counted from one. -/
structure LineError where
  metric : Metric
  line : Nat
  message : String
  deriving DecidableEq

def LineError.text (error : LineError) : String :=
  error.metric.name ++ " rules, line " ++ toString error.line ++ ": " ++ error.message

end TallyRules
