import TallyRules.Number.Layout

/-! # Values

A rule compares a field with a value. A number of a sheet becomes an integer
if it is one and its magnitude is at most that of the greatest integer of 64
bits, and stays a floating-point number otherwise.
-/

namespace TallyRules

inductive Value
  | int (n : Int64)
  | float (x : Binary64)
  | bool (b : Bool)
  | string (s : String)
  deriving DecidableEq

namespace Value

/-- The value of a number in a sheet. -/
def ofNumber (x : Binary64) : Value :=
  match x.toInt? with
  | some n => if n.natAbs ≤ Int64.maxValue.toInt.natAbs then int (Int64.ofInt n) else float x
  | none => float x

def text : Value → String
  | int n => toString n.toInt
  | float x => x.text .message
  | bool b => toString b
  | string s => "\"" ++ s ++ "\""

/-- Values as they stand in a list of them. -/
def listText (values : List Value) : String :=
  String.intercalate ", " (values.map text)

end Value

end TallyRules
