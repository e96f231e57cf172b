import TallyRules.Operator
import TallyRules.Value

/-! # Conditions on documents

A condition combines tests of single fields. The operator of a test says how
its values are compared with the field; an unfilter is not a test, although a
condition made by hand may hold one.
-/

namespace TallyRules

structure Test where
  field : String
  operator : Operator
  values : List Value
  deriving DecidableEq

namespace Test

def equals (field : String) (value : Value) : Test := ⟨field, .filter, [value]⟩

def oneOf (field : String) (values : List Value) : Test := ⟨field, .contain, values⟩

def present (field : String) : Test := ⟨field, .present, []⟩

def text (test : Test) : String :=
  match test.operator with
  | .filter => "(" ++ test.field ++ " == " ++ Value.listText test.values ++ ")"
  | .exclude => "(" ++ test.field ++ " != " ++ Value.listText test.values ++ ")"
  | .contain => "(" ++ test.field ++ " IN [" ++ Value.listText test.values ++ "])"
  | .present => "(" ++ test.field ++ " EXISTS)"
  | .unfilter => "(" ++ test.field ++ " UNFILTER)"

end Test

inductive Condition
  /-- Every document meets it. -/
  | always
  | test (t : Test)
  | and (a b : Condition)
  | or (a b : Condition)
  | not (a : Condition)
  deriving DecidableEq

namespace Condition

def text : Condition → String
  | always => "TRUE"
  | test t => t.text
  | and a b => "(" ++ a.text ++ " AND " ++ b.text ++ ")"
  | or a b => "(" ++ a.text ++ " OR " ++ b.text ++ ")"
  | not a => "(NOT " ++ a.text ++ ")"

/-- The disjunction of some conditions, grouped from the left; of none there is no disjunction. -/
def any? : List Condition → Option Condition
  | [] => none
  | a :: rest => some (rest.foldl or a)

@[simp]
theorem any?_eq_none_iff {parts : List Condition} : any? parts = none ↔ parts = [] := by
  cases parts <;> simp [any?]

def all : List Condition → Condition
  | [] => always
  | a :: rest => rest.foldl and a

def isAlways : Condition → Bool
  | always => true
  | _ => false

def tests : Condition → List Test
  | always => []
  | test t => [t]
  | and a b => a.tests ++ b.tests
  | or a b => a.tests ++ b.tests
  | not a => a.tests

end Condition

end TallyRules
