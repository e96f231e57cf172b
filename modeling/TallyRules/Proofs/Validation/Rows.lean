import Mathlib.Data.List.Forall2
import TallyRules.Validation

/-! # Rows that hold rules

The names of metrics and operators are labels of their own, and rows of which each holds a rule are
checked without errors.
-/

namespace TallyRules

@[simp]
theorem Metric.ofLabel?_name (metric : Metric) : Metric.ofLabel? metric.name = some metric := by
  cases metric <;> decide

@[simp]
theorem Metric.trim_name (metric : Metric) : Text.trim metric.name = metric.name := by
  cases metric <;> decide

@[simp]
theorem Operator.ofLabel?_name (operator : Operator) :
    Operator.ofLabel? operator.name = some operator := by
  cases operator <;> decide

@[simp]
theorem Operator.trim_name (operator : Operator) : Text.trim operator.name = operator.name := by
  cases operator <;> decide

namespace Validation

variable {columns : Columns} {rows : List Row} {rules : List Rule}

theorem rulesOf_eq (h : List.Forall₂ (fun row rule => row.toRule columns = .ok rule) rows rules) :
    rulesOf columns rows = rules := by
  induction h with
  | nil => rfl
  | cons hr _ ih => rw [rulesOf, List.filterMap_cons, hr, Except.toOption, ← rulesOf, ih]

theorem errorsFrom_eq_nil
    (h : List.Forall₂ (fun row rule => row.toRule columns = .ok rule) rows rules) (i : Nat) :
    errorsFrom columns i rows = [] := by
  induction h generalizing i with
  | nil => rfl
  | cons hr _ ih =>
    rw [errorsFrom, hr]
    exact ih (i + 1)

theorem validate_value
    (h : List.Forall₂ (fun row rule => row.toRule columns = .ok rule) rows rules) :
    (validate columns rows).value = ⟨.ofList rules, []⟩ := by
  simp [validate, rulesOf_eq h, errorsFrom_eq_nil h]

end Validation

end TallyRules
