import TallyRules.Json.Decode
import TallyRules.Value

/-! # Values as JSON

A value is written as the JSON value of its kind. An integer that does not fit
into 64 bits with sign is read as a floating-point number.
-/

namespace TallyRules

open Json (Reading Result)

namespace Value

def toJson : Value → Json
  | int n => .number (.integer n.toInt)
  | float x => .number (.float x)
  | bool b => .bool b
  | string s => .string s

def ofJson? : Json → Option Value
  | .number (.integer n) =>
    if Int64.minValue.toInt ≤ n ∧ n ≤ Int64.maxValue.toInt then some (int (Int64.ofInt n))
    else some (float (.ofInt n))
  | .number (.float x) => some (float x)
  | .bool b => some (bool b)
  | .string s => some (string s)
  | .null => none
  | .array _ => none
  | .object _ => none

/-- Reads a value. The whole JSON value is read before its kind counts. -/
def ofReading (room : Nat) (r : Reading) : Result Value := do
  match ofJson? (← r.toJson room) with
  | some value => return value
  | none => throw (.mismatch (.noForm "Value"))

end Value

end TallyRules
