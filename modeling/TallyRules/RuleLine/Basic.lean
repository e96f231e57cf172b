/-! # Lines of rules

A line of text states one rule: a keyword, a quoted column, and mostly a
comparison with quoted values. What a line may go on with where it cannot be
read is an expectation.
-/

namespace TallyRules

inductive Keyword
  | filter
  | exclude
  | unfilter
  | contain
  deriving DecidableEq, Repr

inductive Comparator
  | equals
  | contains
  | present
  deriving DecidableEq, Repr

/-- A rule as a line states it. -/
structure RuleLine where
  keyword : Keyword
  column : String
  /-- Only an unfilter may go without a comparison. -/
  comparator : Option Comparator
  values : List String
  deriving DecidableEq, Repr

/-- What could follow where a line stops being a rule. -/
inductive Expectation
  | keyword
  | columnWord
  | column
  | comparator
  | value
  /-- Nothing could follow. -/
  | lineEnd
  deriving DecidableEq, Repr

def Expectation.phrase : Expectation → String
  | keyword => "expected Filter, Exclude, Unfilter or Contain"
  | columnWord => "expected `column`"
  | column => "expected quoted column name"
  | comparator => "expected =, contain, in or exists"
  | value => "expected quoted value"
  | lineEnd => ""

namespace RuleLine

def keyword? : String → Option Keyword
  | "unfilter" => some .unfilter
  | "filter" => some .filter
  | "include" => some .filter
  | "exclude" => some .exclude
  | "contain" => some .contain
  | "contains" => some .contain
  | _ => none

def comparator? : String → Option Comparator
  | "is" => some .equals
  | "equals" => some .equals
  | "contain" => some .contains
  | "contains" => some .contains
  | "in" => some .contains
  | "exists" => some .present
  | _ => none

def takesValues : Option Comparator → Bool
  | some .equals => true
  | some .contains => true
  | some .present => false
  | none => false

end RuleLine

end TallyRules
