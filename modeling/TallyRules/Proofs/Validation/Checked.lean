import TallyRules.Proofs.Validation.Values

/-! # How a row is checked

The metric, the field and the operator of a row are checked one after the other, and then the value
that the operator needs. A row is rejected at the first check that fails, and holds a rule if none
does.
-/

namespace TallyRules

namespace Row

variable {columns : Columns} {row : Row} {metric : Metric} {field : String} {operator : Operator}
  {rule : Rule} {result : Except Violation Rule}

def MetricIs (columns : Columns) (row : Row) (metric : Metric) : Prop :=
  ∃ cell, row.get? columns.metric = some cell ∧ Metric.ofLabel? cell.label = some metric

def FieldIs (columns : Columns) (row : Row) (field : String) : Prop :=
  field ≠ "" ∧ ∃ cell, row.get? columns.field = some cell ∧ cell.label = field

def OperatorIs (columns : Columns) (row : Row) (operator : Operator) : Prop :=
  ∃ cell, row.get? columns.operator = some cell ∧ Operator.ofLabel? cell.label = some operator

/-- What comes of the checks of a row. -/
inductive Checked (columns : Columns) (row : Row) : Except Violation Rule → Prop
  | noMetric : row.get? columns.metric = none →
      Checked columns row (.error (.missingColumn columns.metric))
  | unknownMetric {cell : Cell} : row.get? columns.metric = some cell →
      Metric.ofLabel? cell.label = none → Checked columns row (.error (.unknownMetric cell.label))
  | noField {metric : Metric} : row.MetricIs columns metric → row.get? columns.field = none →
      Checked columns row (.error (.missingColumn columns.field))
  | emptyField {metric : Metric} {cell : Cell} : row.MetricIs columns metric →
      row.get? columns.field = some cell → cell.label = "" → Checked columns row (.error .emptyField)
  | noOperator {metric : Metric} {field : String} : row.MetricIs columns metric →
      row.FieldIs columns field → row.get? columns.operator = none →
      Checked columns row (.error (.missingColumn columns.operator))
  | unknownOperator {metric : Metric} {field : String} {cell : Cell} :
      row.MetricIs columns metric → row.FieldIs columns field →
      row.get? columns.operator = some cell → Operator.ofLabel? cell.label = none →
      Checked columns row (.error (.unknownOperator cell.label))
  | refused {metric : Metric} {field : String} {operator : Operator} {violation : Violation} :
      row.MetricIs columns metric → row.FieldIs columns field → row.OperatorIs columns operator →
      Constraint.Refused (row.get? columns.value) operator violation →
      Checked columns row (.error violation)
  | accepted {rule : Rule} : row.MetricIs columns rule.metric → row.FieldIs columns rule.field →
      row.OperatorIs columns rule.constraint.operator →
      Constraint.Taken (row.get? columns.value) rule.constraint → Checked columns row (.ok rule)

theorem require_of_some {column : String} {cell : Cell} (h : row.get? column = some cell) :
    row.require column = .ok cell := by
  rw [require, h]

theorem require_of_none {column : String} (h : row.get? column = none) :
    row.require column = .error (.missingColumn column) := by
  rw [require, h]

/-- Once the columns that a rule must have are read, only the value is left to be taken. -/
theorem toRule_eq_map (hm : row.MetricIs columns metric) (hf : row.FieldIs columns field)
    (ho : row.OperatorIs columns operator) :
    row.toRule columns =
      (⟨metric, field, ·⟩) <$> Constraint.ofCell (row.get? columns.value) operator := by
  obtain ⟨_, hm, hn⟩ := hm
  obtain ⟨hne, _, hf, rfl⟩ := hf
  obtain ⟨_, ho, hno⟩ := ho
  cases hc : Constraint.ofCell (row.get? columns.value) operator <;>
    simp [toRule, require_of_some hm, hn, require_of_some hf, hne, require_of_some ho, hno, hc,
      bind, Except.bind, pure, Except.pure]

theorem Checked.toRule_eq (h : Checked columns row result) : row.toRule columns = result := by
  cases h with
  | noMetric hm => simp [toRule, require_of_none hm, bind, Except.bind]
  | unknownMetric hm hn =>
    simp [toRule, require_of_some hm, hn, bind, Except.bind, throw, throwThe, MonadExceptOf.throw]
  | noField hm hf =>
    obtain ⟨_, hm, hn⟩ := hm
    simp [toRule, require_of_some hm, hn, require_of_none hf, bind, Except.bind]
  | emptyField hm hf he =>
    obtain ⟨_, hm, hn⟩ := hm
    simp [toRule, require_of_some hm, hn, require_of_some hf, he, bind, Except.bind, throw,
      throwThe, MonadExceptOf.throw]
  | noOperator hm hf ho =>
    obtain ⟨_, hm, hn⟩ := hm
    obtain ⟨hne, _, hf, rfl⟩ := hf
    simp [toRule, require_of_some hm, hn, require_of_some hf, hne, require_of_none ho, bind,
      Except.bind]
  | unknownOperator hm hf ho hno =>
    obtain ⟨_, hm, hn⟩ := hm
    obtain ⟨hne, _, hf, rfl⟩ := hf
    simp [toRule, require_of_some hm, hn, require_of_some hf, hne, require_of_some ho, hno, bind,
      Except.bind, throw, throwThe, MonadExceptOf.throw]
  | refused hm hf ho hr =>
    rw [toRule_eq_map hm hf ho, Constraint.ofCell_eq_error_iff.mpr hr]
    rfl
  | accepted hm hf ho ht =>
    rw [toRule_eq_map hm hf ho, Constraint.ofCell_eq_ok_iff.mpr ⟨rfl, ht⟩]
    rfl

theorem checked_toRule (columns : Columns) (row : Row) :
    Checked columns row (row.toRule columns) := by
  have hsuffices {result : Except Violation Rule} (h : Checked columns row result) :
      Checked columns row (row.toRule columns) := h.toRule_eq.symm ▸ h
  cases hm : row.get? columns.metric with
  | none => exact hsuffices (.noMetric hm)
  | some metricCell =>
    cases hn : Metric.ofLabel? metricCell.label with
    | none => exact hsuffices (.unknownMetric hm hn)
    | some metric =>
      have hmetric : row.MetricIs columns metric := ⟨metricCell, hm, hn⟩
      cases hf : row.get? columns.field with
      | none => exact hsuffices (.noField hmetric hf)
      | some fieldCell =>
        by_cases he : fieldCell.label = ""
        · exact hsuffices (.emptyField hmetric hf he)
        · have hfield : row.FieldIs columns fieldCell.label := ⟨he, fieldCell, hf, rfl⟩
          cases ho : row.get? columns.operator with
          | none => exact hsuffices (.noOperator hmetric hfield ho)
          | some operatorCell =>
            cases hno : Operator.ofLabel? operatorCell.label with
            | none => exact hsuffices (.unknownOperator hmetric hfield ho hno)
            | some operator =>
              have hoperator : row.OperatorIs columns operator := ⟨operatorCell, ho, hno⟩
              cases hc : Constraint.ofCell (row.get? columns.value) operator with
              | error violation =>
                exact hsuffices
                  (.refused hmetric hfield hoperator (Constraint.ofCell_eq_error_iff.mp hc))
              | ok constraint =>
                obtain ⟨rfl, ht⟩ := Constraint.ofCell_eq_ok_iff.mp hc
                have hrule : Checked columns row
                    (.ok ⟨metric, fieldCell.label, constraint⟩) :=
                  .accepted hmetric hfield hoperator ht
                exact hsuffices hrule

theorem checked_iff : Checked columns row result ↔ row.toRule columns = result :=
  ⟨Checked.toRule_eq, fun h => h ▸ checked_toRule columns row⟩

theorem toRule_eq_ok_iff : row.toRule columns = .ok rule ↔
    row.MetricIs columns rule.metric ∧ row.FieldIs columns rule.field ∧
      row.OperatorIs columns rule.constraint.operator ∧
      Constraint.Taken (row.get? columns.value) rule.constraint := by
  rw [← checked_iff]
  constructor
  · rintro ⟨⟩
    refine ⟨?_, ?_, ?_, ?_⟩ <;> assumption
  · rintro ⟨hm, hf, ho, ht⟩
    exact .accepted hm hf ho ht

end Row

end TallyRules
