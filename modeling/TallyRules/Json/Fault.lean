import TallyRules.Json.Write
import TallyRules.Text.Escaped

/-! # Faults of JSON texts

A text cannot be read because it ends too early, because it is malformed, or
because it holds something else than what is expected. Only the last has a
wording.
-/

namespace TallyRules.Json

/-- Where a text stops being JSON. -/
inductive Fault
  /-- The text ends where something must follow. -/
  | ended
  | malformed
  deriving DecidableEq, Repr

inductive Found
  | null
  | bool (b : Bool)
  | number (n : Number)
  | string (s : String)
  | sequence
  | map
  /-- The name of a variant without its content. -/
  | bareVariant
  deriving DecidableEq

/-- How the content of a text differs from what is expected. -/
inductive Mismatch
  | wrongType (found : Found) (expected : String)
  | unknownVariant (name : String) (known : List String)
  | duplicateField (name : String)
  | missingField (name : String)
  | wrongLength (length : Nat) (expected : String)
  /-- None of the forms of a type fits. -/
  | noForm (typeName : String)
  deriving DecidableEq

inductive ReadError
  | fault (f : Fault)
  | mismatch (m : Mismatch)
  deriving DecidableEq

def Found.phrase : Found → String
  | null => "null"
  | bool b => "boolean `" ++ toString b ++ "`"
  | number (.integer n) => "integer `" ++ toString n ++ "`"
  | number (.float x) => "floating point `" ++ x.text .json ++ "`"
  | string s => "string " ++ Text.escaped s
  | sequence => "sequence"
  | map => "map"
  | bareVariant => "unit variant"

/-- A name between grave accents. -/
def ticked (name : String) : String :=
  "`" ++ name ++ "`"

def oneOf : List String → String
  | [] => "there are no variants"
  | [name] => "expected " ++ ticked name
  | [name, other] => "expected " ++ ticked name ++ " or " ++ ticked other
  | names => "expected one of " ++ String.intercalate ", " (names.map ticked)

def Mismatch.message : Mismatch → String
  | wrongType found expected => "invalid type: " ++ found.phrase ++ ", expected " ++ expected
  | unknownVariant name known => "unknown variant " ++ ticked name ++ ", " ++ oneOf known
  | duplicateField name => "duplicate field " ++ ticked name
  | missingField name => "missing field " ++ ticked name
  | wrongLength length expected =>
    "invalid length " ++ toString length ++ ", expected " ++ expected
  | noForm typeName => "data did not match any variant of untagged enum " ++ typeName

end TallyRules.Json
