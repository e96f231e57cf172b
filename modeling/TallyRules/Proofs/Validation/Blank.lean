import TallyRules.Proofs.Text.Case
import TallyRules.Proofs.Validation.Checked
import TallyRules.Proofs.Validation.Values
import TallyRules.Proofs.Validation.WellFormed

/-! # Blank cells

Whether a cell is blank is decided in two ways. The value of a rule is taken from a cell that is not
blank. The metric, the field and the operator are read off the label of a cell, and the label of a
blank cell is empty, unless the cell is a list of several blank texts: the commas between them stay.
Such a label names no metric and no operator, but it is taken for a field.
-/

namespace TallyRules

namespace Text

variable {c : Char} {word cs : List Char} {separator : String} {items : List String}

theorem mem_of_occursIn (h : occursIn word cs = true) (hc : c ∈ word) : c ∈ cs := by
  induction cs with
  | nil =>
    rw [occursIn, List.isEmpty_iff] at h
    rwa [h] at hc
  | cons d cs ih =>
    rw [occursIn, Bool.or_eq_true, List.isPrefixOf_iff_prefix] at h
    rcases h with h | h
    · exact h.subset hc
    · exact List.mem_cons_of_mem d (ih h)

theorem mem_toList_intercalate (h : c ∈ (separator.intercalate items).toList) :
    c ∈ separator.toList ∨ ∃ s ∈ items, c ∈ s.toList := by
  induction items with
  | nil => simp at h
  | cons s items ih =>
    cases items with
    | nil => exact .inr ⟨s, List.mem_cons_self, by simpa using h⟩
    | cons t items =>
      rw [String.intercalate_cons_cons, String.toList_append, String.toList_append,
        List.mem_append, List.mem_append] at h
      rcases h with (h | h) | h
      · exact .inr ⟨s, List.mem_cons_self, h⟩
      · exact .inl h
      · exact (ih h).imp_right fun ⟨u, hu, hc⟩ => ⟨u, List.mem_cons_of_mem s hu, hc⟩

theorem any_isWordChar_of_lower_trim {s : String}
    (h : (lower (trim s)).toList.any isWordChar = true) : s.toList.any isWordChar = true := by
  obtain ⟨d, hd, hw⟩ := List.any_eq_true.mp h
  rw [lower, String.toList_ofList] at hd
  obtain ⟨c, hc, rfl⟩ := List.mem_map.mp hd
  exact List.any_eq_true.mpr ⟨c, mem_of_mem_trim hc, isWordChar_of_toLower hw⟩

end Text

theorem Metric.any_isWordChar_of_ofLabel? {label : String} {metric : Metric}
    (h : ofLabel? label = some metric) : label.toList.any Text.isWordChar = true := by
  apply Text.any_isWordChar_of_lower_trim
  simp only [ofLabel?] at h
  split at h
  · rename_i ho
    exact List.any_eq_true.mpr ⟨'n', Text.mem_of_occursIn ho (by decide), by decide⟩
  · split at h
    · rename_i ho
      exact List.any_eq_true.mpr ⟨'d', Text.mem_of_occursIn ho (by decide), by decide⟩
    · cases h

theorem Operator.any_isWordChar_of_ofLabel? {label : String} {operator : Operator}
    (h : ofLabel? label = some operator) : label.toList.any Text.isWordChar = true := by
  apply Text.any_isWordChar_of_lower_trim
  unfold ofLabel? at h
  split at h
  case h_7 => cases h
  all_goals
    rename_i he
    rw [he]
    decide

namespace Cell

variable {cell : Cell}

/-- A list of several texts, which its label puts commas between. -/
def isJoined : Cell → Bool
  | list items => 2 ≤ items.length
  | _ => false

/-- The label of a blank cell holds nothing but blanks and commas, and so no part of a word. -/
theorem isBlank_eq_false_of_label (h : cell.label.toList.any Text.isWordChar = true) :
    cell.isBlank = false := by
  obtain ⟨c, hc, hw⟩ := List.any_eq_true.mp h
  rw [Bool.eq_false_iff]
  intro h
  have hne : Text.isBlankChar c ≠ true := by simp [Text.isBlankChar_eq_false_of_isWordChar hw]
  cases cell with
  | text s => exact hne (List.all_eq_true.mp h c (Text.mem_of_mem_trim hc))
  | list items =>
    rcases Text.mem_toList_intercalate (Text.mem_of_mem_trim hc) with hm | ⟨s, hs, hm⟩
    · obtain rfl : c = ',' := List.mem_singleton.mp hm
      exact absurd hw (by decide)
    · exact hne (List.all_eq_true.mp (List.all_eq_true.mp h s hs) c hm)
  | number x => cases h
  | bool b => cases h

theorem label_eq_empty_iff :
    cell.label = "" ↔ cell.isBlank = true ∧ cell.isJoined = false := by
  cases cell with
  | text s => simp [label, isBlank, isJoined, Text.isBlank_iff]
  | number x =>
    simp [label, isBlank, (Value.isTrimmed_text_ofNumber x).ne_empty]
  | bool b => cases b <;> decide
  | list items =>
    rw [label, ← Text.isBlank_iff]
    rcases items with _ | ⟨s, _ | ⟨t, items⟩⟩
    · decide
    · simp [isBlank, isJoined]
    · have hcomma : ',' ∈ (String.intercalate "," (s :: t :: items)).toList := by
        rw [String.intercalate_cons_cons]
        simp
      rw [Text.isBlank_eq_false_of_mem hcomma (by decide)]
      simp [isJoined]

end Cell

namespace Row

variable {columns : Columns} {row : Row}

theorem MetricIs.exists_not_blank {metric : Metric} (h : row.MetricIs columns metric) :
    ∃ cell, row.get? columns.metric = some cell ∧ cell.isBlank = false := by
  obtain ⟨cell, hc, hm⟩ := h
  exact ⟨cell, hc, Cell.isBlank_eq_false_of_label (Metric.any_isWordChar_of_ofLabel? hm)⟩

theorem OperatorIs.exists_not_blank {operator : Operator} (h : row.OperatorIs columns operator) :
    ∃ cell, row.get? columns.operator = some cell ∧ cell.isBlank = false := by
  obtain ⟨cell, hc, ho⟩ := h
  exact ⟨cell, hc, Cell.isBlank_eq_false_of_label (Operator.any_isWordChar_of_ofLabel? ho)⟩

theorem FieldIs.exists_not_blank {field : String} (h : row.FieldIs columns field) :
    ∃ cell, row.get? columns.field = some cell ∧ (cell.isBlank = true → cell.isJoined = true) := by
  obtain ⟨hne, cell, hc, rfl⟩ := h
  refine ⟨cell, hc, fun hb => ?_⟩
  by_contra hj
  exact hne (Cell.label_eq_empty_iff.mpr ⟨hb, Bool.eq_false_iff.mpr hj⟩)

end Row

theorem Constraint.Taken.exists_not_blank {cell : Option Cell} {constraint : Constraint}
    (h : Taken cell constraint) (hv : constraint.operator ∈ [.filter, .exclude, .contain]) :
    ∃ c, cell = some c ∧ c.isBlank = false := by
  have hone {c : Cell} {value : Value} (he : c.entries = [value]) : c.isBlank = false := by
    rw [Bool.eq_false_iff, ← Cell.entries_eq_nil_iff.ne, he]
    exact List.cons_ne_nil _ _
  cases h with
  | filter hc he => exact ⟨_, hc, hone he⟩
  | exclude hc he => exact ⟨_, hc, hone he⟩
  | contain hc he hne =>
    exact ⟨_, hc, Bool.eq_false_iff.mpr fun hb => hne (he ▸ Cell.values_eq_nil_of_isBlank hb)⟩
  | unfilter => exact absurd hv (by decide)
  | present => exact absurd hv (by decide)

namespace Row

/-- The cells from which a rule is read are not blank, and a blank field is an empty one, unless it is
a list of several texts. -/
theorem not_blank_of_toRule (columns : Columns) (row : Row) :
    (∀ rule, row.toRule columns = .ok rule →
      (∃ cell, row.get? columns.metric = some cell ∧ cell.isBlank = false) ∧
      (∃ cell, row.get? columns.field = some cell ∧
        (cell.isBlank = true → cell.isJoined = true)) ∧
      (∃ cell, row.get? columns.operator = some cell ∧ cell.isBlank = false) ∧
      (rule.constraint.operator ∈ [.filter, .exclude, .contain] →
        ∃ cell, row.get? columns.value = some cell ∧ cell.isBlank = false)) ∧
    ∀ metric cell, row.MetricIs columns metric → row.get? columns.field = some cell →
      cell.isBlank = true →
      (row.toRule columns = .error .emptyField ↔ cell.isJoined = false) := by
  constructor
  · intro rule h
    obtain ⟨hm, hf, ho, ht⟩ := toRule_eq_ok_iff.mp h
    refine ⟨hm.exists_not_blank, hf.exists_not_blank, ho.exists_not_blank, fun hv => ?_⟩
    exact ht.exists_not_blank hv
  · intro metric cell hm hf hb
    constructor
    · intro h
      cases checked_iff.mpr h with
      | emptyField _ hf' he =>
        obtain rfl := Option.some.inj (hf.symm.trans hf')
        exact (Cell.label_eq_empty_iff.mp he).2
      | refused _ _ _ hr => cases hr
    · intro hj
      exact (Checked.emptyField hm hf (Cell.label_eq_empty_iff.mpr ⟨hb, hj⟩)).toRule_eq

theorem not_blank_of_toRule_lists :
    let row : Row := ⟨[("Metric", .list [" ", "Numerator"]), ("Field", .list [" region "]),
      ("Operator", .text " filter "), ("Value", .list ["", " EU "])]⟩
    let blank : Row := ⟨[("Metric", .text "Numerator"), ("Field", .list [" "])]⟩
    row.toRule {} = .ok ⟨.numerator, "region", .filter (.string "EU")⟩ ∧
      (∃ cell, row.get? "Value" = some cell ∧ cell.isBlank = false) ∧
      blank.MetricIs {} .numerator ∧ blank.get? "Field" = some (.list [" "]) ∧
      blank.toRule {} = .error .emptyField := by
  intro row blank
  have hrule : row.toRule {} = .ok ⟨.numerator, "region", .filter (.string "EU")⟩ := by
    decide +kernel
  have hmetric : blank.MetricIs {} .numerator := ⟨.text "Numerator", by decide, by decide⟩
  refine ⟨hrule, ?_, hmetric, by decide, ?_⟩
  · obtain ⟨-, -, -, hvalue⟩ := (not_blank_of_toRule {} row).1 _ hrule
    apply hvalue
    decide
  · apply ((not_blank_of_toRule {} blank).2 .numerator (.list [" "]) hmetric ?_ ?_).mpr <;> decide

/-- A list of two blank texts is taken for a field, which is called by the comma between them. -/
theorem toRule_blank_field :
    let row : Row := ⟨[("Metric", .text "Numerator"), ("Field", .list ["", ""]),
      ("Operator", .text "Exists")]⟩
    (∀ cell, row.get? "Field" = some cell → cell.isBlank = true) ∧
      row.MetricIs {} .numerator ∧ row.toRule {} ≠ .error .emptyField ∧
      row.toRule {} = .ok ⟨.numerator, ",", .present⟩ := by
  intro row
  have hrule : row.toRule {} = .ok ⟨.numerator, ",", .present⟩ := by decide +kernel
  refine ⟨?_, ⟨.text "Numerator", by decide, by decide⟩, by simp [hrule], hrule⟩
  have hfield : row.get? "Field" = some (.list ["", ""]) := by decide
  rintro cell hc
  obtain rfl := Option.some.inj (hfield.symm.trans hc)
  decide

end Row

end TallyRules
