import TallyRules.Text.AsciiCase
import TallyRules.Text.Blank

/-! # Operators

A rule applies one of five operators to a field. A label names an operator if
it is the name, up to the case of letters and blank characters around it.
-/

namespace TallyRules

/-- What a rule does with the documents whose field it matches. -/
inductive Operator
  /-- Counts documents whose field is equal to a value. -/
  | filter
  /-- Rules out documents whose field is equal to a value. -/
  | exclude
  /-- Cancels the filters before it. -/
  | unfilter
  /-- Counts documents whose field is one of several values. -/
  | contain
  /-- Counts documents that have the field. -/
  | present
  deriving DecidableEq, Repr

namespace Operator

def name : Operator → String
  | filter => "Filter"
  | exclude => "Exclude"
  | unfilter => "Unfilter"
  | contain => "Contain"
  | present => "Exists"

def ofLabel? (label : String) : Option Operator :=
  match Text.lower (Text.trim label) with
  | "filter" => some filter
  | "exclude" => some exclude
  | "unfilter" => some unfilter
  | "contain" => some contain
  | "contains" => some contain
  | "exists" => some present
  | _ => none

end Operator

end TallyRules
