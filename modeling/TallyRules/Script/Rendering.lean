import TallyRules.Condition
import TallyRules.Config
import TallyRules.Log
import TallyRules.Script.Expr

/-! # Conditions as expressions

A condition is written as an expression over the fields of a document. Reading
an indexed value fails for a document without the field, so such a reading
stands behind a test for the field: without the field an inclusion fails and an
exclusion holds. A test that has no meaning has no expression.
-/

namespace TallyRules

inductive TestFault
  | blankField
  | notOneValue (count : Nat)
  | noValue
  | someValues (count : Nat)
  deriving DecidableEq

def TestFault.message : TestFault → String
  | blankField => "field name is empty"
  | notOneValue count => "expected 1 value, got " ++ toString count
  | noValue => "expected at least 1 value, got 0"
  | someValues count => "expected no values, got " ++ toString count

inductive ScriptError
  | unsupportedOperator (field : String) (operator : Operator)
  | malformedTest (field : String) (operator : Operator) (reason : String)
  | duplicateKey (key : String)
  deriving DecidableEq

def ScriptError.message : ScriptError → String
  | unsupportedOperator field operator =>
    "operator " ++ operator.name ++ " on field '" ++ field ++ "' has no script rendering"
  | malformedTest field operator reason =>
    "malformed " ++ operator.name ++ " test on field '" ++ field ++ "': " ++ reason
  | duplicateKey key => "output key '" ++ key ++ "' is used for more than one value"

open Script (Expr)

namespace Access

def read (field : String) : Access → Expr
  | source => .index (.index (.var "params") (.string "_source")) (.string field)
  | docValues => .property (.index (.var "doc") (.string field)) "value"

def has (field : String) : Access → Expr
  | source => .binary .ne (source.read field) .null
  | docValues =>
    .paren (.binary .and (.callWith (.var "doc") "containsKey" (.string field))
      (.binary .gt (.call (.index (.var "doc") (.string field)) "size") (.integer 0)))

/-- A comparison that holds of no document without the field. -/
def guardInclusion (field : String) (comparison : Expr) : Access → Expr
  | source => comparison
  | docValues => .paren (.binary .and (docValues.has field) comparison)

/-- A comparison that holds of every document without the field. -/
def guardExclusion (field : String) (comparison : Expr) : Access → Expr
  | source => comparison
  | docValues => .paren (.binary .or (.not (docValues.has field)) comparison)

def compare (access : Access) (field : String) (op : Script.BinaryOp) (value : Value) : Expr :=
  .binary op (access.read field) value.toExpr

/-- The comparison of a field with several values, of which one must be equal. -/
def compareAny (access : Access) (field : String) (first : Value) : List Value → Expr
  | [] => access.compare field .eq first
  | rest =>
    .paren ((rest.map (access.compare field .eq)).foldl (.binary .or)
      (access.compare field .eq first))

end Access

def Test.malformed (t : Test) (fault : TestFault) : ScriptError :=
  .malformedTest t.field t.operator fault.message

def Test.toExpr (access : Access) (t : Test) : Except ScriptError Expr :=
  if Text.isBlank t.field then .error (t.malformed .blankField)
  else match t.operator, t.values with
    | .filter, [value] =>
      .ok (access.guardInclusion t.field (access.compare t.field .eq value))
    | .exclude, [value] =>
      .ok (access.guardExclusion t.field (access.compare t.field .ne value))
    | .contain, first :: rest =>
      .ok (access.guardInclusion t.field (access.compareAny t.field first rest))
    | .present, [] => .ok (access.has t.field)
    | .filter, values => .error (t.malformed (.notOneValue values.length))
    | .exclude, values => .error (t.malformed (.notOneValue values.length))
    | .contain, [] => .error (t.malformed .noValue)
    | .present, values => .error (t.malformed (.someValues values.length))
    | .unfilter, _ => .error (.unsupportedOperator t.field t.operator)

namespace Condition

def toExpr (access : Access) : Condition → Except ScriptError Expr
  | always => .ok (.bool true)
  | test t => t.toExpr access
  | and a b => return .paren (.binary .and (← a.toExpr access) (← b.toExpr access))
  | or a b => return .paren (.binary .or (← a.toExpr access) (← b.toExpr access))
  | not a => return .not (.paren (← a.toExpr access))

/-- What happens when a condition is written: each of its parts that has an expression is
reported after its own parts, up to the first that has none. -/
def renderingEvents (access : Access) (a : Condition) : List Event :=
  let parts := match a with
    | always => []
    | test _ => []
    | and b c => b.renderingEvents access ++
        if (b.toExpr access).isOk then c.renderingEvents access else []
    | or b c => b.renderingEvents access ++
        if (b.toExpr access).isOk then c.renderingEvents access else []
    | not b => b.renderingEvents access
  match a.toExpr access with
  | .ok e => parts ++ [.rendered a e.text]
  | .error _ => parts

def render (access : Access) (a : Condition) : Logged (Except ScriptError Expr) := do
  Logged.logAll (a.renderingEvents access)
  return a.toExpr access

end Condition

end TallyRules
