import TallyRules.Config
import TallyRules.Json.Decode
import TallyRules.Metric
import TallyRules.Operator

/-! # Settings as JSON

Settings are written as objects. What is not given when they are read keeps its
default.
-/

namespace TallyRules

open Json (FieldReader Reading Result)

def Metric.toJson (metric : Metric) : Json := .string metric.name

def Metric.ofReading (room : Nat) (r : Reading) : Result Metric :=
  r.toName room (all.map fun metric => (metric.name, metric))

def Operator.toJson (operator : Operator) : Json := .string operator.name

def Operator.ofReading (room : Nat) (r : Reading) : Result Operator :=
  r.toName room ([filter, exclude, unfilter, contain, present].map fun operator =>
    (operator.name, operator))

namespace Columns

def toJson (columns : Columns) : Json :=
  .object [("field_column", .string columns.field), ("operator_column", .string columns.operator),
    ("value_column", .string columns.value), ("metric_column", .string columns.metric)]

def fields : List (FieldReader Columns) := [
  .text "field_column" fun s columns => { columns with field := s },
  .text "operator_column" fun s columns => { columns with operator := s },
  .text "value_column" fun s columns => { columns with value := s },
  .text "metric_column" fun s columns => { columns with metric := s }]

def ofReading (room : Nat) (r : Reading) : Result Columns :=
  r.toRecord room "ColumnConfig" fields {}

end Columns

namespace Access

def name : Access → String
  | source => "source"
  | docValues => "doc_values"

def toJson (access : Access) : Json := .string access.name

def ofReading (room : Nat) (r : Reading) : Result Access :=
  r.toName room ([source, docValues].map fun access => (access.name, access))

end Access

namespace Measure

def toJson : Measure → Json
  | count => .string "count"
  | sum field => .object [("sum", .object [("field", .string field)])]

def sumPhrase : String := "struct variant Measure::Sum"

def sumOfReading (room : Nat) : Reading → Result Measure
  | .array items ending => Json.enter room fun _ =>
    match items with
    | [] => do
      Json.close ending ()
      throw (.mismatch (.wrongLength 0 (sumPhrase ++ " with 1 element")))
    | [field] => do
      Json.close ending (sum (← field.toText))
    | field :: _ => do
      let _ ← field.toText
      Json.stop .malformed
  | .object members ending => Json.enter room fun room => do
    let field ← Reading.readMembers [.text "field" fun s _ => some s] room ending [] members none
    match field with
    | some field => return sum field
    | none => throw (.mismatch (.missingField "field"))
  | r => r.refuse sumPhrase

def ofReading (room : Nat) (r : Reading) : Result Measure :=
  r.toVariant room ["count", "sum"] fun room name content =>
    match name, content with
    | "sum", some content => sumOfReading room content
    | "sum", none => throw (.mismatch (.wrongType .bareVariant "struct variant"))
    | _, some content => do
      content.toUnit
      return count
    | _, none => return count

end Measure

namespace ScriptConfig

def toJson (config : ScriptConfig) : Json :=
  .object [("field_access", config.access.toJson), ("numerator_key", .string config.numeratorKey),
    ("denominator_key", .string config.denominatorKey),
    ("numerator_measure", config.numeratorMeasure.toJson),
    ("denominator_measure", config.denominatorMeasure.toJson),
    ("ratio_key", config.ratioKey.elim .null .string)]

def fields : List (FieldReader ScriptConfig) := [
  ⟨"field_access", fun room r config =>
    return { config with access := ← Access.ofReading room r }⟩,
  .text "numerator_key" fun s config => { config with numeratorKey := s },
  .text "denominator_key" fun s config => { config with denominatorKey := s },
  ⟨"numerator_measure", fun room r config =>
    return { config with numeratorMeasure := ← Measure.ofReading room r }⟩,
  ⟨"denominator_measure", fun room r config =>
    return { config with denominatorMeasure := ← Measure.ofReading room r }⟩,
  ⟨"ratio_key", fun _ r config => return { config with ratioKey := ← r.toOptionalText }⟩]

def ofReading (room : Nat) (r : Reading) : Result ScriptConfig :=
  r.toRecord room "EmitterConfig" fields {}

end ScriptConfig

namespace Policy

def name : Policy → String
  | collect => "collect"
  | strict => "strict"

def toJson (policy : Policy) : Json := .string policy.name

def ofReading (room : Nat) (r : Reading) : Result Policy :=
  r.toName room ([collect, strict].map fun policy => (policy.name, policy))

end Policy

namespace Config

def toJson (config : Config) : Json :=
  .object [("columns", config.columns.toJson), ("emitter", config.script.toJson),
    ("policy", config.policy.toJson)]

def fields : List (FieldReader Config) := [
  ⟨"columns", fun room r config => return { config with columns := ← Columns.ofReading room r }⟩,
  ⟨"emitter", fun room r config =>
    return { config with script := ← ScriptConfig.ofReading room r }⟩,
  ⟨"policy", fun room r config => return { config with policy := ← Policy.ofReading room r }⟩]

def ofReading (room : Nat) (r : Reading) : Result Config :=
  r.toRecord room "PipelineConfig" fields {}

def ofText (text : String) : Result Config :=
  Json.decode ofReading text

end Config

end TallyRules
