import TallyRules.Resolution
import TallyRules.Script.Rendering
import TallyRules.Script.Stmt

/-! # The four scripts of an aggregation

The documents are spread over shards. On each shard the first script sets both
totals to zero, the second runs for every document and adds to the totals of
the metrics whose condition it meets, and the third hands the totals over. The
last script adds up what the shards have handed over, and works out the
percentage if one is wanted.
-/

namespace TallyRules

structure Phases where
  init : Script.Stmt
  map : Script.Stmt
  combine : Script.Stmt
  reduce : Script.Stmt
  deriving DecidableEq

/-- The texts of the scripts, and the keys of their results. -/
structure Aggregation where
  init : String
  map : String
  combine : String
  reduce : String
  numeratorKey : String
  denominatorKey : String
  deriving DecidableEq

namespace ScriptConfig

open Script (Expr Stmt)

def key (config : ScriptConfig) : Metric → String
  | .numerator => config.numeratorKey
  | .denominator => config.denominatorKey

def measure (config : ScriptConfig) : Metric → Measure
  | .numerator => config.numeratorMeasure
  | .denominator => config.denominatorMeasure

def keys (config : ScriptConfig) : List String :=
  [config.numeratorKey, config.denominatorKey] ++ config.ratioKey.toList

/-- The first text that repeats an earlier one or one of those seen before. -/
def firstRepeated? (seen : List String) : List String → Option String
  | [] => none
  | key :: keys => if key ∈ seen then some key else firstRepeated? (seen ++ [key]) keys

/-- Every result needs a key of its own. -/
def checkKeys (config : ScriptConfig) : Except ScriptError Unit :=
  match firstRepeated? [] config.keys with
  | some key => .error (.duplicateKey key)
  | none => .ok ()

def total (config : ScriptConfig) (metric : Metric) : Expr :=
  .index (.var "state") (.string (config.key metric))

/-- The total before the first document. -/
def zero (config : ScriptConfig) (metric : Metric) : Expr :=
  match config.measure metric with
  | .count => .long 0
  | .sum _ => .double (.zero false)

/-- What a document that meets the condition of a metric adds. -/
def accumulate (config : ScriptConfig) (metric : Metric) : Stmt :=
  match config.measure metric with
  | .count => .add (config.total metric) (.integer 1)
  | .sum field =>
    .when (config.access.has field) (.add (config.total metric) (config.access.read field))

def initScript (config : ScriptConfig) : Stmt :=
  .seq (.assign (config.total .numerator) (config.zero .numerator))
    (.assign (config.total .denominator) (config.zero .denominator))

def mapScript (config : ScriptConfig) (numerator denominator : Expr) : Stmt :=
  .seq (.when numerator (config.accumulate .numerator))
    (.when denominator (config.accumulate .denominator))

def combineScript (config : ScriptConfig) : Stmt :=
  .returnMap [(config.numeratorKey, config.total .numerator),
    (config.denominatorKey, config.total .denominator)]

/-- The percentage, rounded down to two decimals. -/
def percentage : Expr :=
  .binary .div
    (.callWith (.var "Math") "floor"
      (.binary .mul (.binary .div (.asDouble (.var "numerator")) (.var "denominator"))
        (.double (.ofNat 10000))))
    (.double (.ofNat 100))

/-- Adds up what the shards have handed over. A shard may have nothing to hand over. -/
def addUp (config : ScriptConfig) : Stmt :=
  .seq (.define "numerator" (config.zero .numerator))
    (.seq (.define "denominator" (config.zero .denominator))
      (.forEach "s" (.var "states")
        (.when (.binary .ne (.var "s") .null)
          (.seq (.add (.var "numerator") (.index (.var "s") (.string config.numeratorKey)))
            (.add (.var "denominator") (.index (.var "s") (.string config.denominatorKey)))))))

def reduceScript (config : ScriptConfig) : Stmt :=
  let totals := [(config.numeratorKey, Expr.var "numerator"),
    (config.denominatorKey, Expr.var "denominator")]
  match config.ratioKey with
  | none => .seq config.addUp (.returnMap totals)
  | some ratioKey =>
    .seq config.addUp
      (.seq (.define "ratio" .null)
        (.seq
          (.when (.binary .ne (.var "denominator") (.integer 0))
            (.assign (.var "ratio") percentage))
          (.returnMap (totals ++ [(ratioKey, .var "ratio")]))))

/-- The four scripts, given the expressions of the conditions. -/
def phases (config : ScriptConfig) (numerator denominator : Expr) : Phases where
  init := config.initScript
  map := config.mapScript numerator denominator
  combine := config.combineScript
  reduce := config.reduceScript

def aggregation (config : ScriptConfig) (phases : Phases) : Aggregation where
  init := phases.init.text
  map := phases.map.text
  combine := phases.combine.text
  reduce := phases.reduce.text
  numeratorKey := config.numeratorKey
  denominatorKey := config.denominatorKey

def phases? (config : ScriptConfig) (numerator denominator : Condition) :
    Except ScriptError Phases := do
  config.checkKeys
  return config.phases (← numerator.toExpr config.access) (← denominator.toExpr config.access)

/-- The texts of the scripts for resolved rules, with the events on the way to them. -/
def emit (config : ScriptConfig) (resolved : Resolved) :
    Logged (Except ScriptError Aggregation) := do
  match config.checkKeys with
  | .error error => return .error error
  | .ok () =>
    match ← resolved.numerator.render config.access with
    | .error error => return .error error
    | .ok numerator =>
      match ← resolved.denominator.render config.access with
      | .error error => return .error error
      | .ok denominator =>
        Logged.log (.renderedMetric .numerator numerator.text)
        Logged.log (.renderedMetric .denominator denominator.text)
        return .ok (config.aggregation (config.phases numerator denominator))

end ScriptConfig

end TallyRules
