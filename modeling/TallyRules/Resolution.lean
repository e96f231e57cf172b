import TallyRules.Log
import TallyRules.Rule

/-! # Conditions from rules

The rules of a metric resolve to one condition. On each field, in the order in
which fields are first mentioned, the filters, containments and presence tests
that are not cancelled are alternatives, and no exclusion may match; a
document must meet this on every field. An unfilter cancels the filters before
it on its field. Without any constraint every document counts.
-/

namespace TallyRules

/-- The tests on one field that are in force. -/
structure FieldTests where
  includes : List Test
  excludes : List Test
  deriving DecidableEq

namespace FieldTests

def none : FieldTests := ⟨[], []⟩

def isFilter (t : Test) : Bool :=
  t.operator = .filter

/-- Applies the next rule on the field. -/
def apply (tests : FieldTests) (rule : Rule) : FieldTests :=
  match rule.constraint with
  | .filter value => { tests with includes := tests.includes ++ [.equals rule.field value] }
  | .contain values => { tests with includes := tests.includes ++ [.oneOf rule.field values] }
  | .present => { tests with includes := tests.includes ++ [.present rule.field] }
  | .exclude value => { tests with excludes := tests.excludes ++ [.equals rule.field value] }
  | .unfilter => { tests with includes := tests.includes.filter (!isFilter ·) }

/-- The condition that the tests make up, if there is a test. -/
def condition? (tests : FieldTests) : Option Condition :=
  let include? := Condition.any? (tests.includes.map .test)
  let exclude? := (Condition.any? (tests.excludes.map .test)).map .not
  match include?, exclude? with
  | some i, some e => some (.and i e)
  | some i, .none => some i
  | .none, some e => some e
  | .none, .none => .none

/-- The cancellations when the rules are applied. -/
def cancellations (tests : FieldTests) : List Rule → List Event
  | [] => []
  | rule :: rules =>
    let here := match rule.constraint with
      | .unfilter => [.cancelledFilters rule.field (tests.includes.countP isFilter)]
      | _ => []
    here ++ cancellations (tests.apply rule) rules

end FieldTests

namespace Resolution

def addToGroup (rule : Rule) : List (String × List Rule) → List (String × List Rule)
  | [] => [(rule.field, [rule])]
  | (field, rules) :: groups =>
    if field = rule.field then (field, rules ++ [rule]) :: groups
    else (field, rules) :: addToGroup rule groups

/-- The rules on each field, the fields in the order in which they are first mentioned. -/
def groupByField (rules : List Rule) : List (String × List Rule) :=
  rules.foldl (fun groups rule => addToGroup rule groups) []

def fieldCondition? (rules : List Rule) : Option Condition :=
  (rules.foldl FieldTests.apply FieldTests.none).condition?

def fieldEvents (field : String) (rules : List Rule) : List Event :=
  FieldTests.none.cancellations rules ++
    if (fieldCondition? rules).isNone then [.unconstrainedField field] else []

end Resolution

/-- The condition that some rules make up. -/
def Condition.ofRules (rules : List Rule) : Condition :=
  .all ((Resolution.groupByField rules).filterMap fun group => Resolution.fieldCondition? group.2)

def Resolution.events (rules : List Rule) : List Event :=
  (groupByField rules).flatMap fun group => fieldEvents group.1 group.2

inductive Warning
  | noRules (metric : Metric)
  deriving DecidableEq

def Warning.message : Warning → String
  | noRules metric => metric.name ++ " has no rules; every document counts"

structure Resolved where
  numerator : Condition
  denominator : Condition
  warnings : List Warning
  deriving DecidableEq

namespace RuleSet

def resolveMetric (set : RuleSet) (metric : Metric) : Logged Condition := do
  let rules := set.rules metric
  if rules.isEmpty then Logged.log (.noRules metric)
  Logged.logAll (Resolution.events rules)
  Logged.log (.resolved metric (.ofRules rules))
  return .ofRules rules

def warnings (set : RuleSet) : List Warning :=
  (Metric.all.filter fun metric => (set.rules metric).isEmpty).map .noRules

def resolve (set : RuleSet) : Logged Resolved := do
  let numerator ← set.resolveMetric .numerator
  let denominator ← set.resolveMetric .denominator
  return ⟨numerator, denominator, set.warnings⟩

end RuleSet

end TallyRules
