import TallyRules.Proofs.RuleLine.Rows

/-! # What the rows of a line hold

A line has a row for each value that it excludes, or one row. The names of the
columns only say where the cells stand: if they are told apart, the rows of a
line hold the same rules, and are rejected for the same reasons, under any
names.
-/

namespace TallyRules

variable {columns : Columns}

namespace RuleLine

/-- The row of a line, with a cell for the value if the operator takes one. -/
def row (columns : Columns) (metric : Metric) (field : String) (operator : Operator) :
    Option Cell → Row
  | none => baseRow columns metric field operator
  | some cell => (baseRow columns metric field operator).insert columns.value cell

/-- The rows of a line. What they hold is the same in any columns. -/
theorem toRows_cases (line : RuleLine) :
    (line.keyword = .exclude ∧ line.comparator = some .present ∧
        ∀ columns metric, line.toRows columns metric = .error exclusionOfPresence) ∨
      (line.keyword = .exclude ∧ line.comparator ≠ some .present ∧
        ∀ columns metric, line.toRows columns metric = .ok (line.values.map fun value =>
          row columns metric line.column .exclude (some (.text value)))) ∨
      (line.keyword ≠ .exclude ∧ ∃ operator cell,
        ∀ columns metric, line.toRows columns metric =
          .ok [row columns metric line.column operator cell]) := by
  obtain ⟨keyword, column, comparator, values⟩ := line
  cases keyword with
  | unfilter => exact .inr (.inr ⟨by simp, .unfilter, none, fun _ _ => rfl⟩)
  | exclude =>
    rcases comparator with _ | _ | _ | _
    · exact .inr (.inl ⟨rfl, by simp, fun _ _ => rfl⟩)
    · exact .inr (.inl ⟨rfl, by simp, fun _ _ => rfl⟩)
    · exact .inr (.inl ⟨rfl, by simp, fun _ _ => rfl⟩)
    · exact .inl ⟨rfl, rfl, fun _ _ => rfl⟩
  | contain =>
    refine .inr (.inr ⟨by simp, ?_⟩)
    rcases comparator with _ | _ | _ | _
    · exact ⟨.contain, some (.list values), fun _ _ => rfl⟩
    · exact ⟨.contain, some (.list values), fun _ _ => rfl⟩
    · exact ⟨.contain, some (.list values), fun _ _ => rfl⟩
    · exact ⟨.present, none, fun _ _ => rfl⟩
  | filter =>
    refine .inr (.inr ⟨by simp, ?_⟩)
    rcases comparator with _ | _ | _ | _
    · exact ⟨.contain, some (.list values), fun _ _ => rfl⟩
    -- only a comparison with one value stays a filter
    · match values with
      | [] => exact ⟨.contain, some (.list []), fun _ _ => rfl⟩
      | [value] => exact ⟨.filter, some (.text value), fun _ _ => rfl⟩
      | value :: second :: rest =>
        exact ⟨.contain, some (.list (value :: second :: rest)), fun _ _ => rfl⟩
    · exact ⟨.contain, some (.list values), fun _ _ => rfl⟩
    · exact ⟨.present, none, fun _ _ => rfl⟩

theorem read_of_scan {line : String} {ruleLine : RuleLine} (h : scan line.toList = .ok ruleLine)
    (columns : Columns) (metric : Metric) :
    read columns metric line = ruleLine.toRows columns metric := by
  rw [read, h]

theorem read_cases (metric : Metric) (line : String) :
    (∃ message, ∀ columns, read columns metric line = .error message) ∨
      ∃ field, ∃ contents : List (Operator × Option Cell), ∀ columns,
        read columns metric line =
          .ok (contents.map fun content => row columns metric field content.1 content.2) := by
  cases hs : scan line.toList with
  | error stop => exact .inl ⟨stop.message line, fun columns => by rw [read, hs]⟩
  | ok ruleLine =>
    simp only [read_of_scan hs]
    rcases ruleLine.toRows_cases with ⟨-, -, he⟩ | ⟨-, -, hr⟩ | ⟨-, operator, cell, hr⟩
    · exact .inl ⟨exclusionOfPresence, fun columns => he columns metric⟩
    · refine .inr ⟨ruleLine.column,
        ruleLine.values.map fun value => (.exclude, some (.text value)), fun columns => ?_⟩
      rw [hr, List.map_map]
      rfl
    · exact .inr ⟨ruleLine.column, [(operator, cell)], fun columns => hr columns metric⟩

theorem Derives.values_ne_nil {cs : List Char} {line : RuleLine} (h : Derives cs line)
    (hk : line.keyword = .exclude) (hc : line.comparator ≠ some .present) : line.values ≠ [] := by
  cases h with
  | valued hs _ _ _ hv _ => cases hv <;> exact List.cons_ne_nil _ _
  | present => exact absurd rfl hc
  | bare => cases hk

end RuleLine

theorem Constraint.ofCell_ne_missingColumn (cell : Option Cell) (operator : Operator)
    (column : String) : ofCell cell operator ≠ .error (.missingColumn column) := by
  intro h
  cases ofCell_eq_error_iff.mp h

namespace RuleLine

theorem names_row (h : columns.Distinct) (metric : Metric) (field : String) (operator : Operator)
    (cell : Option Cell) :
    (row columns metric field operator cell).Names columns metric field operator := by
  cases cell with
  | none => exact names_baseRow h metric field operator
  | some cell => exact (names_baseRow h metric field operator).insert h cell

theorem get?_value_row (h : columns.Distinct) (metric : Metric) (field : String)
    (operator : Operator) (cell : Option Cell) :
    (row columns metric field operator cell).get? columns.value = cell := by
  cases cell with
  | none =>
    obtain ⟨⟨-, hf, -⟩, ⟨ho, -⟩, hm⟩ := Columns.distinct_iff.mp h
    rw [sameColumn_comm] at hm
    have he : Row.empty.get? columns.value = none := rfl
    simp [row, baseRow, Row.ofCells, Row.get?_insert, hf, ho, hm, he]
  | some cell => rw [row, Row.get?_insert, if_pos (sameColumn_refl _)]

/-- The rule in a row of a line does not depend on the names of the columns. -/
theorem toRule_row (h : columns.Distinct) (metric : Metric) (field : String) (operator : Operator)
    (cell : Option Cell) :
    (row columns metric field operator cell).toRule columns =
      if Text.trim field = "" then .error .emptyField
      else (⟨metric, Text.trim field, ·⟩) <$> Constraint.ofCell cell operator := by
  rw [(names_row h metric field operator cell).toRule_eq, get?_value_row h]

theorem toRule_row_ne_missingColumn (h : columns.Distinct) (metric : Metric) (field : String)
    (operator : Operator) (cell : Option Cell) (column : String) :
    (row columns metric field operator cell).toRule columns ≠ .error (.missingColumn column) := by
  rw [toRule_row h]
  split
  · simp
  · exact mt map_eq_error_iff.mp (Constraint.ofCell_ne_missingColumn cell operator column)

end RuleLine

end TallyRules
