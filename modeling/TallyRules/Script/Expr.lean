import TallyRules.Script.Quote
import TallyRules.Value

/-! # Expressions of scripts

Expressions are kept as they are written: parentheses are part of them, so
that printing an expression adds nothing and leaves nothing out.
-/

namespace TallyRules.Script

inductive BinaryOp
  | or
  | and
  | eq
  | ne
  | gt
  | mul
  | div
  deriving DecidableEq

def BinaryOp.sign : BinaryOp → String
  | or => "||"
  | and => "&&"
  | eq => "=="
  | ne => "!="
  | gt => ">"
  | mul => "*"
  | div => "/"

inductive Expr
  | null
  | bool (b : Bool)
  | integer (n : Nat)
  | long (n : Int64)
  | double (x : Binary64)
  | string (s : String)
  | var (n : String)
  /-- The entry of a map or list under a key. -/
  | index (base key : Expr)
  | property (base : Expr) (name : String)
  | call (base : Expr) (method : String)
  | callWith (base : Expr) (method : String) (argument : Expr)
  | not (e : Expr)
  | binary (op : BinaryOp) (a b : Expr)
  /-- The value as a floating-point number. -/
  | asDouble (e : Expr)
  | paren (e : Expr)
  deriving DecidableEq

namespace Expr

def text : Expr → String
  | null => "null"
  | bool b => toString b
  | integer n => toString n
  | long n => toString n.toInt ++ "L"
  | double x => x.text .script
  | string s => quoted s
  | var n => n
  | index base key => base.text ++ "[" ++ key.text ++ "]"
  | property base name => base.text ++ "." ++ name
  | call base method => base.text ++ "." ++ method ++ "()"
  | callWith base method argument => base.text ++ "." ++ method ++ "(" ++ argument.text ++ ")"
  | not e => "!" ++ e.text
  | binary op a b => a.text ++ " " ++ op.sign ++ " " ++ b.text
  | asDouble e => "(double) " ++ e.text
  | paren e => "(" ++ e.text ++ ")"

end Expr

end TallyRules.Script

namespace TallyRules

/-- The expression for a value, which keeps its type. -/
def Value.toExpr : Value → Script.Expr
  | int n => .long n
  | float .nan => .property (.var "Double") "NaN"
  | float (.infinite false) => .property (.var "Double") "POSITIVE_INFINITY"
  | float (.infinite true) => .property (.var "Double") "NEGATIVE_INFINITY"
  | float x => .double x
  | bool b => .bool b
  | string s => .string s

end TallyRules
