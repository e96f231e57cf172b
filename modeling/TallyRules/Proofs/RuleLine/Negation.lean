import TallyRules.Proofs.Resolution.Tests
import TallyRules.Proofs.RuleLine.Comparison
import TallyRules.Proofs.RuleLine.Contents
import TallyRules.Proofs.Script.Guards
import TallyRules.Proofs.Validation.Batch

/-! # Lines that exclude and lines that filter

A line that excludes values has a row for each of them, and the blank values
are rejected one by one. A line that filters by the same values has one row,
in which the blank values are passed over. Unless all of them are blank, a
document meets the rules of the one line if it does not meet those of the
other.
-/

namespace TallyRules

open RuleLine

open Text (isBlank trim)

variable {columns : Columns} {metric : Metric} {field : String} {comparator : Comparator}
  {values : List String}

section Values

/-- The constraint of a line that filters. Only a comparison with one value stays a filter. -/
def selection : Comparator → List String → Constraint
  | .equals, [value] => .filter (.string (trim value))
  | _, values => .contain (Cell.nonBlankItems values)

theorem selection_cases (hp : comparator ≠ .present) (values : List String) :
    (∃ value, comparator = .equals ∧ values = [value]) ∨
      selection comparator values = .contain (Cell.nonBlankItems values) ∧
        ∀ columns metric column,
          (⟨.filter, column, some comparator, values⟩ : RuleLine).toRows columns metric =
            .ok [row columns metric column .contain (some (.list values))] := by
  cases comparator with
  | present => exact absurd rfl hp
  | contains => exact Or.inr ⟨rfl, fun _ _ _ => rfl⟩
  | equals =>
    match values with
    | [] => exact Or.inr ⟨rfl, fun _ _ _ => rfl⟩
    | [value] => exact Or.inl ⟨value, rfl, rfl⟩
    | value :: second :: rest => exact Or.inr ⟨rfl, fun _ _ _ => rfl⟩

end Values

section Rows

theorem toRule_row_of_trimmed (hd : columns.Distinct) (hb : isBlank field = false)
    (operator : Operator) (cell : Cell) :
    (row columns metric (trim field) operator (some cell)).toRule columns =
      (⟨metric, trim field, ·⟩) <$> Constraint.ofCell (some cell) operator := by
  have hne : trim field ≠ "" := fun he => by simp [Text.isBlank_iff.mpr he] at hb
  rw [toRule_row hd, Text.trim_trim, if_neg hne]

def exclusionRow (columns : Columns) (metric : Metric) (field value : String) : Row :=
  row columns metric field .exclude (some (.text value))

theorem toRule_exclusionRow (hd : columns.Distinct) (hb : isBlank field = false) (metric : Metric)
    (value : String) :
    (exclusionRow columns metric (trim field) value).toRule columns =
      if isBlank value = true then .error (.missingValue .exclude)
      else .ok ⟨metric, trim field, .exclude (.string (trim value))⟩ := by
  rw [exclusionRow, toRule_row_of_trimmed hd hb, Constraint.ofCell, Cell.singleValue]
  by_cases h : isBlank value = true
  · simp [Cell.isBlank, h]
  · simp [Cell.isBlank, h]

theorem rulesOf_exclusionRows (hd : columns.Distinct) (hb : isBlank field = false)
    (values : List String) :
    Validation.rulesOf columns (values.map (exclusionRow columns metric (trim field))) =
      (Cell.nonBlankItems values).map (⟨metric, trim field, .exclude ·⟩) := by
  induction values with
  | nil => rfl
  | cons value values ih =>
    have hrow := toRule_exclusionRow hd hb metric value
    rw [List.map_cons, Cell.nonBlankItems_cons]
    split at hrow
    · rename_i h
      rw [Validation.rulesOf_cons_of_error hrow, if_pos h, ih]
    · rename_i h
      rw [Validation.rulesOf_cons_of_ok hrow, if_neg h, ih, List.map_cons]

theorem errorsFrom_exclusionRows (hd : columns.Distinct) (hb : isBlank field = false)
    (values : List String) (first : Nat) :
    Validation.errorsFrom columns first
        (values.map (exclusionRow columns metric (trim field))) =
      ((values.zipIdx first).filter fun entry => isBlank entry.1).map
        fun entry => ⟨entry.2, .missingValue .exclude⟩ := by
  induction values generalizing first with
  | nil => rfl
  | cons value values ih =>
    have hrow := toRule_exclusionRow hd hb metric value
    rw [List.map_cons, Validation.errorsFrom, hrow, ih (first + 1), List.zipIdx_cons,
      List.filter_cons]
    by_cases h : isBlank value = true <;> simp [h]

theorem validate_exclusionRows (hd : columns.Distinct) (hb : isBlank field = false)
    (metric : Metric) (values : List String) :
    (validate columns (values.map (exclusionRow columns metric (trim field)))).value =
      ⟨.ofList ((Cell.nonBlankItems values).map (⟨metric, trim field, .exclude ·⟩)),
        (values.zipIdx.filter fun entry => isBlank entry.1).map
          fun entry => ⟨entry.2, .missingValue .exclude⟩⟩ := by
  rw [← rulesOf_exclusionRows hd hb, ← errorsFrom_exclusionRows hd hb]
  rfl

theorem toRows_exclude (field : String) (values : List String) (hp : comparator ≠ .present) :
    (⟨.exclude, field, some comparator, values⟩ : RuleLine).toRows columns metric =
      .ok (values.map (exclusionRow columns metric field)) := by
  cases comparator with
  | present => exact absurd rfl hp
  | equals | contains => rfl

theorem exists_row_filter (hd : columns.Distinct) (hb : isBlank field = false) (metric : Metric)
    (hp : comparator ≠ .present) (hv : ∃ s ∈ values, isBlank s = false) :
    ∃ r, (⟨.filter, trim field, some comparator, values⟩ : RuleLine).toRows columns metric =
        .ok [r] ∧ r.toRule columns = .ok ⟨metric, trim field, selection comparator values⟩ := by
  rcases selection_cases hp values with ⟨value, rfl, rfl⟩ | ⟨hc, hr⟩
  · have hvalue : isBlank value = false := by simpa using hv
    refine ⟨row columns metric (trim field) .filter (some (.text value)), rfl, ?_⟩
    rw [toRule_row_of_trimmed hd hb, Constraint.ofCell, Cell.singleValue, Cell.isBlank, hvalue]
    rfl
  · refine ⟨_, hr columns metric (trim field), ?_⟩
    rw [toRule_row_of_trimmed hd hb, hc, Constraint.ofCell, Cell.valueList, Cell.values,
      if_neg (Cell.nonBlankItems_ne_nil hv)]
    rfl

theorem LineRows.readText_of_derives {line : String} {ruleLine : RuleLine} {rows : List Row}
    (hl : Text.IsLine line) (h : Derives line.toList ruleLine)
    (hr : ruleLine.toRows columns metric = .ok rows) :
    (readText columns metric line).value.errors = [] ∧
      (readText columns metric line).value.toRows = rows := by
  have hlines : Text.lines line = [line] := by
    have hone : Text.lines ("\n".intercalate [line]) = [line] :=
      Text.lines_intercalate (by simpa using hl)
    simpa using hone
  have hline : ofLine columns metric 1 line = ⟨rows.map (⟨metric, 1, ·⟩), []⟩ := by
    simp [ofLine, h.isBlank_eq_false, read_of_scan h.scan_eq, hr]
  have hread : (readText columns metric line).value = ofLines columns metric 1 [line] := by
    rw [← hlines]
    rfl
  rw [hread, ofLines, ofLines, hline]
  exact ⟨rfl, by simp [toRows, empty, Function.comp_def]⟩

end Rows

section Meaning

variable {truth : Test → Bool}

namespace Resolution

theorem foldl_apply_exclusions (excluded : List Value) (tests : FieldTests) :
    (excluded.map (⟨metric, field, .exclude ·⟩)).foldl FieldTests.apply tests =
      ⟨tests.includes, tests.excludes ++ excluded.map (.equals field)⟩ := by
  induction excluded generalizing tests with
  | nil => simp
  | cons v excluded ih => simp [ih, FieldTests.apply]

end Resolution

theorem Condition.holds_ofRules_exclusions {excluded : List Value} (hne : excluded ≠ []) :
    (ofRules (excluded.map (⟨metric, field, .exclude ·⟩))).holds truth =
      !excluded.any fun v => truth (.equals field v) := by
  obtain ⟨e, he⟩ : ∃ e, any? ((excluded.map (Test.equals field)).map .test) = some e := by
    rw [← Option.ne_none_iff_exists', ne_eq, any?_eq_none_iff]
    simpa using hne
  have hgroup : Resolution.fieldCondition? (excluded.map (⟨metric, field, .exclude ·⟩)) =
      some (.not e) := by
    rw [Resolution.fieldCondition?, Resolution.foldl_apply_exclusions]
    simp only [FieldTests.condition?, FieldTests.none, List.nil_append, he]
    rfl
  have hrules : ofRules (excluded.map (⟨metric, field, .exclude ·⟩)) = .not e := by
    have hfield : ∀ rule ∈ excluded.map (Rule.mk metric field <| .exclude ·),
        rule.field = field := by simp
    rw [ofRules, Resolution.groupByField_of_field (by simpa using hne) hfield]
    simp [hgroup, all]
  rw [hrules, holds, holds_of_any? he, List.any_map, List.any_map]
  rfl

theorem Condition.holds_ofRules_selection (hp : comparator ≠ .present)
    (ht : ∀ field values, truth (.oneOf field values) = values.any fun v => truth (.equals field v))
    (hv : ∃ s ∈ values, isBlank s = false) :
    (ofRules [⟨metric, field, selection comparator values⟩]).holds truth =
      (Cell.nonBlankItems values).any fun v => truth (.equals field v) := by
  rcases selection_cases hp values with ⟨value, rfl, rfl⟩ | ⟨hc, -⟩
  · have hvalue : ¬ isBlank value = true := by simpa using hv
    rw [Cell.nonBlankItems_cons, if_neg hvalue]
    exact (Bool.or_false _).symm
  · rw [hc]
    exact ht field _

theorem Document.meets_oneOf (d : Document) (field : String) (values : List Value) :
    d.meets (.oneOf field values) = values.any fun v => d.meets (.equals field v) := by
  simp only [meets, Test.oneOf, Test.equals, hasOneOf]
  cases d.value? field <;> simp

end Meaning

section Lines

variable {column : QuotedText} {sign : String} {values : List QuotedText}

/-- A line that excludes values has a row for each of them, and the blank ones are rejected one by
one. -/
theorem LineRows.validate_readText_exclude (hd : columns.Distinct) (metric : Metric)
    (hb : isBlank column.content = false) (hs : compared? sign = some comparator)
    (hp : comparator ≠ .present) (hne : values ≠ []) :
    let lineRows := (readText columns metric (comparisonLine "Exclude" column sign values)).value
    let contents := values.map QuotedText.content
    lineRows.errors = [] ∧ lineRows.toRows.length = values.length ∧
      (validate columns lineRows.toRows).value =
        ⟨.ofList ((Cell.nonBlankItems contents).map (⟨metric, trim column.content, .exclude ·⟩)),
          (contents.zipIdx.filter fun entry => isBlank entry.1).map
            fun entry => ⟨entry.2, .missingValue .exclude⟩⟩ := by
  intro lineRows contents
  obtain ⟨herrors, hrows⟩ : lineRows.errors = [] ∧ lineRows.toRows = _ :=
    readText_of_derives (isLine_comparisonLine (by decide) hs hne)
      (derives_comparisonLine "Exclude" .exclude (by decide) (by decide) hb hs hp hne)
      (toRows_exclude _ _ hp)
  refine ⟨herrors, by simp [hrows], ?_⟩
  rw [hrows]
  exact validate_exclusionRows hd hb metric contents

/-- A line that filters has one row, in which blank values are passed over. -/
theorem LineRows.validate_readText_filter (hd : columns.Distinct) (metric : Metric)
    (hb : isBlank column.content = false) (hs : compared? sign = some comparator)
    (hp : comparator ≠ .present) (hv : ∃ s ∈ values.map QuotedText.content, isBlank s = false) :
    let lineRows := (readText columns metric (comparisonLine "Filter" column sign values)).value
    let contents := values.map QuotedText.content
    lineRows.errors = [] ∧ lineRows.toRows.length = 1 ∧ (validate columns lineRows.toRows).value =
      ⟨.ofList [⟨metric, trim column.content, selection comparator contents⟩], []⟩ := by
  intro lineRows contents
  have hne : values ≠ [] := by
    rintro rfl
    simp at hv
  obtain ⟨r, hr, hrule⟩ := exists_row_filter hd hb metric hp hv
  obtain ⟨herrors, hrows⟩ : lineRows.errors = [] ∧ lineRows.toRows = [r] :=
    readText_of_derives (isLine_comparisonLine (by decide) hs hne)
      (derives_comparisonLine "Filter" .filter (by decide) (by decide) hb hs hp hne) hr
  refine ⟨herrors, by simp [hrows], ?_⟩
  rw [hrows]
  exact Validation.validate_value (.cons hrule .nil)

/-- A document meets the rules of a line that excludes values if it does not meet those of the line
that filters by the same comparison, provided that one of the values is not blank. The one line has
a row for each value, of which the blank ones are rejected. The other has one row, with no error,
and an alternative for each value that is not blank. -/
theorem LineRows.exclude_negates_filter (hd : columns.Distinct) (metric : Metric)
    (hb : isBlank column.content = false) (hs : compared? sign = some comparator)
    (hp : comparator ≠ .present) (hv : ∃ v ∈ values, isBlank v.content = false) :
    let contents := values.map QuotedText.content
    let excludingRows :=
      (readText columns metric (comparisonLine "Exclude" column sign values)).value
    let filteringRows :=
      (readText columns metric (comparisonLine "Filter" column sign values)).value
    let excluding := (validate columns excludingRows.toRows).value
    let filtering := (validate columns filteringRows.toRows).value
    (∀ truth : Test → Bool,
      (∀ field values, truth (.oneOf field values) = values.any fun v => truth (.equals field v)) →
      (Condition.ofRules (excluding.rules.rules metric)).holds truth =
        !(Condition.ofRules (filtering.rules.rules metric)).holds truth) ∧
    (∀ d : Document, (Condition.ofRules (excluding.rules.rules metric)).holds d.meets =
      !(Condition.ofRules (filtering.rules.rules metric)).holds d.meets) ∧
    (excludingRows.errors = [] ∧ excludingRows.toRows.length = values.length ∧
      excluding.errors = (contents.zipIdx.filter fun entry => isBlank entry.1).map
        (fun entry => ⟨entry.2, .missingValue .exclude⟩) ∧
      ∀ m, excluding.rules.rules m = if m = metric then
        (Cell.nonBlankItems contents).map (⟨metric, trim column.content, .exclude ·⟩) else []) ∧
    (filteringRows.errors = [] ∧ filteringRows.toRows.length = 1 ∧ filtering.errors = [] ∧
      ∀ m, filtering.rules.rules m = if m = metric then
        [⟨metric, trim column.content, selection comparator contents⟩] else []) := by
  intro contents excludingRows filteringRows excluding filtering
  have hne : values ≠ [] := by
    rintro rfl
    simp at hv
  have hcontents : ∃ s ∈ contents, isBlank s = false := by simpa [contents] using hv
  obtain ⟨hunread, hlength, hexcluding⟩ : _ ∧ _ ∧ excluding = _ :=
    validate_readText_exclude hd metric hb hs hp hne
  obtain ⟨hunread', hlength', hfiltering⟩ : _ ∧ _ ∧ filtering = _ :=
    validate_readText_filter hd metric hb hs hp hcontents
  have hexclusions : ∀ m, excluding.rules.rules m = if m = metric then
      (Cell.nonBlankItems contents).map (⟨metric, trim column.content, .exclude ·⟩) else [] := by
    intro m
    rw [hexcluding]
    exact RuleSet.rules_ofList_of_metric (by simp) m
  have hselection : ∀ m, filtering.rules.rules m = if m = metric then
      [⟨metric, trim column.content, selection comparator contents⟩] else [] := by
    intro m
    rw [hfiltering]
    exact RuleSet.rules_ofList_of_metric (by simp) m
  have hnegates : ∀ truth : Test → Bool,
      (∀ field values, truth (.oneOf field values) = values.any fun v => truth (.equals field v)) →
      (Condition.ofRules (excluding.rules.rules metric)).holds truth =
        !(Condition.ofRules (filtering.rules.rules metric)).holds truth := by
    intro truth ht
    rw [hexclusions, hselection, if_pos rfl, if_pos rfl,
      Condition.holds_ofRules_selection hp ht hcontents,
      Condition.holds_ofRules_exclusions (Cell.nonBlankItems_ne_nil hcontents)]
  refine ⟨hnegates, fun d => hnegates d.meets d.meets_oneOf, ⟨hunread, hlength, ?_, hexclusions⟩,
    hunread', hlength', ?_, hselection⟩
  · rw [hexcluding]
  · rw [hfiltering]

/-- The blank value is rejected in the one line and passed over in the other, and a comma does not
divide a value. -/
theorem LineRows.exclude_negates_filter_padded :
    let column := QuotedText.ofText " id " (by decide) (by decide)
    let values := [QuotedText.ofText "a, \"b\"" (by decide) (by decide),
      .ofText " " (by decide) (by decide), .ofText " c" (by decide) (by decide)]
    let excludingLine := comparisonLine "Exclude" column "IN" values
    let excluding := (validate {} (readText {} .numerator excludingLine).value.toRows).value
    let filteringLine := comparisonLine "Filter" column "IN" values
    let filtering := (validate {} (readText {} .numerator filteringLine).value.toRows).value
    excludingLine = "Exclude column \" id \" IN \"a, \\\"b\\\"\", \" \", \" c\"" ∧
      excluding.errors = [⟨1, .missingValue .exclude⟩] ∧
      excluding.rules.numerator = [⟨.numerator, "id", .exclude (.string "a, \"b\"")⟩,
        ⟨.numerator, "id", .exclude (.string "c")⟩] ∧
      filtering.rules.numerator =
        [⟨.numerator, "id", .contain [.string "a, \"b\"", .string "c"]⟩] ∧
      ∀ d : Document, (Condition.ofRules excluding.rules.numerator).holds d.meets =
        !(Condition.ofRules filtering.rules.numerator).holds d.meets := by
  intro column values excludingLine excluding filteringLine filtering
  have hd : Columns.Distinct {} := by decide
  have hs : compared? "IN" = some .contains := by decide
  have hb : isBlank column.content = false := by decide
  have hv : ∃ v ∈ values, isBlank v.content = false := ⟨_, List.mem_cons_self, by decide⟩
  obtain ⟨-, hnegates, ⟨-, -, herrors, hexclusions⟩, -, -, -, hselection⟩ :=
    exclude_negates_filter hd .numerator hb hs (by decide) hv
  refine ⟨by decide, herrors.trans ?_, (hexclusions .numerator).trans ?_,
    (hselection .numerator).trans ?_, hnegates⟩
  · decide
  · decide
  · decide

end Lines

end TallyRules
