/-! # Settings

Settings say under which columns a sheet keeps its rules, how scripts read the
fields of documents and what they add up, and what happens to a sheet of which
some rules are rejected.
-/

namespace TallyRules

/-- The names of the columns of a rule. -/
structure Columns where
  field : String := "Field"
  operator : String := "Operator"
  value : String := "Value"
  metric : String := "Metric"
  deriving DecidableEq

/-- Where a script reads the fields of a document. -/
inductive Access
  /-- In the source of the document, which holds every field. -/
  | source
  /-- In the values indexed for the document. Reading a field that it lacks fails. -/
  | docValues
  deriving DecidableEq

/-- What a metric adds up over the documents that meet its condition. -/
inductive Measure
  /-- One for each document. -/
  | count
  /-- The number in a field, for each document that has it. -/
  | sum (field : String)
  deriving DecidableEq

structure ScriptConfig where
  access : Access := .source
  numeratorKey : String := "numerator"
  denominatorKey : String := "denominator"
  numeratorMeasure : Measure := .count
  denominatorMeasure : Measure := .count
  /-- The key of the percentage of the numerator in the denominator, if it is wanted. -/
  ratioKey : Option String := none
  deriving DecidableEq

/-- What happens when some rules are rejected. -/
inductive Policy
  /-- The others are used, and the rejected ones are reported. -/
  | collect
  /-- Nothing is generated. -/
  | strict
  deriving DecidableEq

structure Config where
  columns : Columns := {}
  script : ScriptConfig := {}
  policy : Policy := .collect
  deriving DecidableEq

end TallyRules
