import TallyRules.Proofs.Validation.Rows

/-! # Rows one by one

Each row of a sheet becomes one rule or one error. The errors name the
positions of the rejected rows, and the rules of a metric are those of the
other rows, in the order of the sheet.
-/

namespace TallyRules

namespace Row

def isAccepted (columns : Columns) (row : Row) : Bool :=
  (row.toRule columns).isOk

def isRuleOf (columns : Columns) (metric : Metric) (row : Row) : Bool :=
  match row.toRule columns with
  | .ok rule => rule.metric = metric
  | .error _ => false

variable {columns : Columns} {row : Row}

theorem isAccepted_of_isRuleOf {metric : Metric} (h : row.isRuleOf columns metric = true) :
    row.isAccepted columns = true := by
  unfold isRuleOf at h
  unfold isAccepted
  cases hr : row.toRule columns with
  | ok rule => rfl
  | error violation => simp [hr] at h

end Row

namespace Validation

variable {columns : Columns} {rows : List Row}

def error? (columns : Columns) (entry : Row × Nat) : Option RowError :=
  match entry.1.toRule columns with
  | .ok _ => none
  | .error violation => some ⟨entry.2, violation⟩

theorem error?_eq_some_iff {entry : Row × Nat} {error : RowError} :
    error? columns entry = some error ↔
      entry.2 = error.row ∧ entry.1.toRule columns = .error error.violation := by
  unfold error?
  obtain ⟨i, violation⟩ := error
  cases entry.1.toRule columns <;> simp

theorem errorsFrom_eq (first : Nat) :
    errorsFrom columns first rows = (rows.zipIdx first).filterMap (error? columns) := by
  induction rows generalizing first with
  | nil => rfl
  | cons row rows ih =>
    rw [errorsFrom, List.zipIdx_cons, List.filterMap_cons, error?, ih (first + 1)]
    cases row.toRule columns <;> rfl

theorem mem_errorsFrom_zero_iff {error : RowError} :
    error ∈ errorsFrom columns 0 rows ↔
      ∃ row ∈ rows[error.row]?, row.toRule columns = .error error.violation := by
  simp only [errorsFrom_eq, List.mem_filterMap, error?_eq_some_iff, Prod.exists,
    List.mem_zipIdx_iff_getElem?, Option.mem_def]
  constructor
  · rintro ⟨row, _, hr, rfl, he⟩
    exact ⟨row, hr, he⟩
  · rintro ⟨row, hr, he⟩
    exact ⟨row, _, hr, rfl, he⟩

theorem pairwise_errorsFrom (first : Nat) :
    ((errorsFrom columns first rows).map RowError.row).Pairwise (· < ·) := by
  have hpositions : (rows.zipIdx first).Pairwise (fun a b => a.2 < b.2) := by
    rw [← List.pairwise_map (f := Prod.snd), List.zipIdx_map_snd]
    exact List.pairwise_lt_range'
  rw [errorsFrom_eq, List.pairwise_map, List.pairwise_filterMap]
  refine hpositions.imp fun hlt error he other ho => ?_
  rwa [← (error?_eq_some_iff.mp he).1, ← (error?_eq_some_iff.mp ho).1]

theorem errorsFrom_eq_nil_iff (first : Nat) :
    errorsFrom columns first rows = [] ↔ ∀ row ∈ rows, row.isAccepted columns = true := by
  induction rows generalizing first with
  | nil => simp [errorsFrom]
  | cons row rows ih =>
    rw [errorsFrom, List.forall_mem_cons, ← ih (first + 1), Row.isAccepted]
    cases row.toRule columns <;> simp [Except.isOk, Except.toBool]

theorem rulesOf_cons_of_ok {row : Row} {rule : Rule} (h : row.toRule columns = .ok rule) :
    rulesOf columns (row :: rows) = rule :: rulesOf columns rows := by
  rw [rulesOf, List.filterMap_cons, h]
  rfl

theorem rulesOf_cons_of_error {row : Row} {violation : Violation}
    (h : row.toRule columns = .error violation) :
    rulesOf columns (row :: rows) = rulesOf columns rows := by
  rw [rulesOf, List.filterMap_cons, h]
  rfl

theorem length_rulesOf_add (first : Nat) :
    (rulesOf columns rows).length + (errorsFrom columns first rows).length = rows.length := by
  induction rows generalizing first with
  | nil => rfl
  | cons row rows ih =>
    have hrest := ih (first + 1)
    rw [errorsFrom, List.length_cons]
    cases hr : row.toRule columns with
    | ok rule =>
      rw [rulesOf_cons_of_ok hr]
      dsimp only [List.length_cons]
      omega
    | error violation =>
      rw [rulesOf_cons_of_error hr]
      dsimp only [List.length_cons]
      omega

theorem forall₂_rulesOf (columns : Columns) (rows : List Row) (metric : Metric) :
    List.Forall₂ (fun row rule => row.toRule columns = .ok rule)
      (rows.filter (Row.isRuleOf columns metric))
      ((rulesOf columns rows).filter (·.metric = metric)) := by
  induction rows with
  | nil => exact .nil
  | cons row rows ih =>
    rw [List.filter_cons, Row.isRuleOf]
    cases hr : row.toRule columns with
    | error violation =>
      rw [rulesOf_cons_of_error hr]
      exact ih
    | ok rule =>
      rw [rulesOf_cons_of_ok hr, List.filter_cons]
      dsimp only
      split
      · exact .cons hr ih
      · exact ih

theorem validate_rules (columns : Columns) (rows : List Row) :
    (validate columns rows).value.rules = .ofList (rulesOf columns rows) := rfl

theorem validate_errors (columns : Columns) (rows : List Row) :
    (validate columns rows).value.errors = errorsFrom columns 0 rows := rfl

theorem forall₂_rules (columns : Columns) (rows : List Row) (metric : Metric) :
    List.Forall₂ (fun row rule => row.toRule columns = .ok rule)
      (rows.filter (Row.isRuleOf columns metric))
      ((validate columns rows).value.rules.rules metric) := by
  rw [validate_rules, RuleSet.rules_ofList]
  exact forall₂_rulesOf columns rows metric

/-- The rules come from the accepted rows of each metric, in their order. -/
theorem rules_congr {others : List Row}
    (h : ∀ metric, others.filter (Row.isRuleOf columns metric) =
      rows.filter (Row.isRuleOf columns metric)) :
    (validate columns others).value.rules = (validate columns rows).value.rules := by
  refine RuleSet.ext_rules fun metric => ?_
  have hothers := rulesOf_eq (forall₂_rules columns others metric)
  rw [h metric] at hothers
  exact hothers.symm.trans (rulesOf_eq (forall₂_rules columns rows metric))

theorem size_rules_add (columns : Columns) (rows : List Row) :
    (validate columns rows).value.rules.size + (validate columns rows).value.errors.length =
      rows.length := by
  rw [validate_rules, RuleSet.size_ofList]
  exact length_rulesOf_add 0

section Readings

variable {others : Columns} {otherRows : List Row}

theorem errorsFrom_congr (h : rows.map (Row.toRule columns) = otherRows.map (Row.toRule others))
    (first : Nat) : errorsFrom columns first rows = errorsFrom others first otherRows := by
  induction rows generalizing first otherRows with
  | nil =>
    obtain rfl : otherRows = [] := List.map_eq_nil_iff.mp h.symm
    rfl
  | cons row rows ih =>
    obtain ⟨other, rest, rfl, hrow, hrest⟩ := List.map_eq_cons_iff.mp h.symm
    rw [errorsFrom, errorsFrom, hrow, ih hrest.symm (first + 1)]

theorem validate_congr (h : rows.map (Row.toRule columns) = otherRows.map (Row.toRule others)) :
    validate columns rows = validate others otherRows := by
  have hrules : rulesOf columns rows = rulesOf others otherRows := by
    have htoOption := congrArg (List.filterMap Except.toOption) h
    rwa [List.filterMap_map, List.filterMap_map] at htoOption
  unfold validate
  rw [hrules, errorsFrom_congr h 0]

end Readings

end Validation

end TallyRules
