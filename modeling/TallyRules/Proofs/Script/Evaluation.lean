import Mathlib.Data.Rat.Floor
import TallyRules.Script.Expr

/-! # Evaluation of expressions

An expression has a value among the variables in scope, or it fails. Numbers
are exact rationals. A document may lack a field: its source then gives null,
and its indexed values give nothing to read.
-/

namespace TallyRules

/-- A value that a field can have. -/
inductive Scalar
  | bool (b : Bool)
  | number (q : ℚ)
  | infinite (negative : Bool)
  | nan
  | string (s : String)
  deriving DecidableEq

/-- Equality in scripts. No value is equal to one that is not a number. -/
def Scalar.equal (a b : Scalar) : Bool :=
  a = b && a ≠ .nan

def Binary64.toScalar : Binary64 → Scalar
  | finite negative m p _ =>
    let magnitude : ℚ := (m * Nat.pow 2 p : ℕ) / (unitsPerOne : ℕ)
    .number (if negative then -magnitude else magnitude)
  | infinite negative => .infinite negative
  | nan => .nan

/-- The value that a rule compares a field with, as scripts see it. -/
def Value.toScalar : Value → Scalar
  | int n => .number n.toInt
  | float x => x.toScalar
  | bool b => .bool b
  | string s => .string s

/-- A document. The index may know a field without a value for it, but it knows every field with
one. -/
structure Document where
  value? : String → Option Scalar
  indexes : String → Bool
  indexes_of_value : ∀ field, (value? field).isSome → indexes field

namespace Script

inductive Datum
  | null
  | scalar (x : Scalar)
  | map (entries : List (String × Datum))
  | list (items : List Datum)
  /-- The source of a document. -/
  | source (document : Document)
  /-- The values indexed for a document. -/
  | indexed (document : Document)
  /-- What is indexed for a field. -/
  | column (value : Option Scalar)
  /-- A class of the language. -/
  | type (name : String)

namespace Datum

@[match_pattern]
abbrev bool (b : Bool) : Datum := scalar (.bool b)

@[match_pattern]
abbrev number (q : ℚ) : Datum := scalar (.number q)

@[match_pattern]
abbrev string (s : String) : Datum := scalar (.string s)

def ofOption : Option Scalar → Datum
  | some x => scalar x
  | none => null

/-- The entry under a key. A map gives null for a key that it lacks. -/
def lookup? : Datum → Datum → Option Datum
  | map entries, string key => some ((entries.lookup key).getD null)
  | source document, string field => some (ofOption (document.value? field))
  | indexed document, string field =>
    if document.indexes field then some (column (document.value? field)) else none
  | _, _ => none

def property? : Datum → String → Option Datum
  | column (some x), "value" => some (scalar x)
  | type "Double", "NaN" => some (scalar .nan)
  | type "Double", "POSITIVE_INFINITY" => some (scalar (.infinite false))
  | type "Double", "NEGATIVE_INFINITY" => some (scalar (.infinite true))
  | _, _ => none

def call? : Datum → String → Option Datum
  | column value, "size" => some (number (if value.isSome then 1 else 0))
  | _, _ => none

def callWith? : Datum → String → Datum → Option Datum
  | indexed document, "containsKey", string field => some (bool (document.indexes field))
  | type "Math", "floor", number q => some (number ⌊q⌋)
  | _, _, _ => none

/-- Equality of what can be compared. Null is equal to itself only. -/
def equal? : Datum → Datum → Option Bool
  | null, null => some true
  | null, _ => some false
  | _, null => some false
  | scalar a, scalar b => some (a.equal b)
  | _, _ => none

def asBool? : Datum → Option Bool
  | bool b => some b
  | _ => none

def asNumber? : Datum → Option ℚ
  | number q => some q
  | _ => none

end Datum

def BinaryOp.apply? : BinaryOp → Datum → Datum → Option Datum
  | or, a, b => return .bool ((← a.asBool?) || (← b.asBool?))
  | and, a, b => return .bool ((← a.asBool?) && (← b.asBool?))
  | eq, a, b => return .bool (← a.equal? b)
  | ne, a, b => return .bool (!(← a.equal? b))
  | gt, a, b => return .bool ((← b.asNumber?) < (← a.asNumber?))
  | mul, a, b => return .number ((← a.asNumber?) * (← b.asNumber?))
  | div, a, b => do
    let divisor ← b.asNumber?
    if divisor = 0 then none else return .number ((← a.asNumber?) / divisor)

/-- The result of an operation that the value of its first operand decides, if it does. -/
def BinaryOp.decided? : BinaryOp → Datum → Option Datum
  | or, .bool true => some (.bool true)
  | and, .bool false => some (.bool false)
  | _, _ => none

def Env : Type := String → Option Datum

namespace Env

/-- The scope without variables. -/
def types : Env := fun n => if n = "Double" ∨ n = "Math" then some (.type n) else none

def set (env : Env) (n : String) (v : Datum) : Env :=
  fun m => if m = n then some v else env m

@[simp]
theorem set_self (env : Env) (n : String) (v : Datum) : env.set n v n = some v := by
  simp [set]

theorem set_of_ne (env : Env) {n m : String} (v : Datum) (h : m ≠ n) : env.set n v m = env m := by
  simp [set, h]

end Env

/-- The value of an expression. A failure of the second operand does not count if the first
operand decides. -/
def Expr.eval (env : Env) : Expr → Option Datum
  | null => some .null
  | bool b => some (.bool b)
  | integer n => some (.number n)
  | long n => some (.number n.toInt)
  | double x => some (.scalar x.toScalar)
  | string s => some (.string s)
  | var n => env n
  | index base key => do (← base.eval env).lookup? (← key.eval env)
  | property base name => do (← base.eval env).property? name
  | call base method => do (← base.eval env).call? method
  | callWith base method argument => do
    (← base.eval env).callWith? method (← argument.eval env)
  | not e => return .bool (!(← (← e.eval env).asBool?))
  | binary op a b => do
    let x ← a.eval env
    match op.decided? x with
    | some v => some v
    | none => op.apply? x (← b.eval env)
  | asDouble e => return .number (← (← e.eval env).asNumber?)
  | paren e => e.eval env

end Script

end TallyRules
