import TallyRules.Json.Decode
import TallyRules.Row

/-! # Rows as JSON

A cell is written as the JSON value of its kind, and a row as the list of its
columns and cells. A row that is read may have several cells in one column.
-/

namespace TallyRules

open Json (Reading Result)

namespace Cell

def toJson : Cell → Json
  | bool b => .bool b
  | number x => .number (.float x)
  | text s => .string s
  | list items => .array (items.map .string)

/-- The texts in a list of JSON values, if there is nothing else in it. -/
def texts? : List Json → Option (List String)
  | [] => some []
  | .string s :: items => (texts? items).map (s :: ·)
  | _ :: _ => none

def ofJson? : Json → Option Cell
  | .bool b => some (bool b)
  | .number (.integer n) => some (number (.ofInt n))
  | .number (.float x) => some (number x)
  | .string s => some (text s)
  | .array items => (texts? items).map list
  | .null => none
  | .object _ => none

/-- Reads a cell. The whole JSON value is read before its kind counts. -/
def ofReading (room : Nat) (r : Reading) : Result Cell := do
  match ofJson? (← r.toJson room) with
  | some cell => return cell
  | none => throw (.mismatch (.noForm "Cell"))

end Cell

namespace Row

def toJson (row : Row) : Json :=
  .array (row.cells.map fun (column, cell) => .array [.string column, cell.toJson])

def pairPhrase : String := "a tuple of size 2"

def pairOfReading (room : Nat) : Reading → Result (String × Cell)
  | .array items ending => Json.enter room fun room =>
    match items with
    | [] => do
      Json.close ending ()
      throw (.mismatch (.wrongLength 0 pairPhrase))
    | [column] => do
      let _ ← column.toText
      Json.close ending ()
      throw (.mismatch (.wrongLength 1 pairPhrase))
    | [column, cell] => do
      let pair := (← column.toText, ← Cell.ofReading room cell)
      Json.close ending pair
    | column :: cell :: _ => do
      let _ ← column.toText
      let _ ← Cell.ofReading room cell
      Json.stop .malformed
  | r => r.refuse pairPhrase

def ofReading (room : Nat) (r : Reading) : Result Row :=
  Row.mk <$> r.toList room pairOfReading

end Row

end TallyRules
