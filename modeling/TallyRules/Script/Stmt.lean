import TallyRules.Script.Expr

/-! # Statements of scripts

A script is a sequence of statements on one line.
-/

namespace TallyRules.Script

/-- A statement, or several in sequence. -/
inductive Stmt
  /-- `target = value;` -/
  | assign (target value : Expr)
  /-- `target += value;` -/
  | add (target value : Expr)
  /-- `def variable = value;` -/
  | define (var : String) (value : Expr)
  /-- `if (condition) { body }` -/
  | when (condition : Expr) (body : Stmt)
  /-- `for (variable in list) { body }` -/
  | forEach (var : String) (list : Expr) (body : Stmt)
  /-- `return [key: value, …];` -/
  | returnMap (entries : List (String × Expr))
  | seq (a b : Stmt)
  deriving DecidableEq

namespace Stmt

def entryText (entry : String × Expr) : String :=
  quoted entry.1 ++ ": " ++ entry.2.text

def text : Stmt → String
  | assign target value => target.text ++ " = " ++ value.text ++ ";"
  | add target value => target.text ++ " += " ++ value.text ++ ";"
  | define var value => "def " ++ var ++ " = " ++ value.text ++ ";"
  | when condition body => "if (" ++ condition.text ++ ") \x7b " ++ body.text ++ " \x7d"
  | forEach var list body =>
    "for (" ++ var ++ " in " ++ list.text ++ ") \x7b " ++ body.text ++ " \x7d"
  | returnMap entries => "return [" ++ String.intercalate ", " (entries.map entryText) ++ "];"
  | seq a b => a.text ++ " " ++ b.text

end Stmt

end TallyRules.Script
