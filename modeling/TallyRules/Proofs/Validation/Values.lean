import TallyRules.Proofs.Except
import TallyRules.Proofs.Text.Blank
import TallyRules.Validation

/-! # The values in a cell

A text is one value, and a list has a value for each text in it; blank texts are passed over. A
filter and an exclusion take a cell with one value. A containment takes a cell with any values, and
splits a text at its commas.
-/

namespace TallyRules

namespace Cell

variable {s : String} {items : List String} {value : Value} {operator : Operator}
  {cell : Option Cell} {violation : Violation}

theorem nonBlankItems_cons (s : String) (items : List String) :
    nonBlankItems (s :: items) =
      if Text.isBlank s = true then nonBlankItems items
      else .string (Text.trim s) :: nonBlankItems items := by
  by_cases h : Text.isBlank s = true
  · simp [nonBlankItems, h, Text.isBlank_iff.mp h]
  · simp [nonBlankItems, h, mt Text.isBlank_iff.mpr h]

theorem nonBlankItems_eq_nil_iff : nonBlankItems items = [] ↔ items.all Text.isBlank = true := by
  induction items with
  | nil => simp [nonBlankItems]
  | cons s items ih =>
    rw [nonBlankItems_cons, List.all_cons, Bool.and_eq_true]
    split
    · rename_i h
      simp [ih, h]
    · rename_i h
      simp [h]

theorem nonBlankItems_ne_nil (h : ∃ s ∈ items, Text.isBlank s = false) :
    nonBlankItems items ≠ [] := by
  rw [ne_eq, nonBlankItems_eq_nil_iff, Bool.not_eq_true, List.all_eq_false]
  simpa using h

theorem exists_nonBlankItems_eq (items : List String) : ∃ texts : List String,
    nonBlankItems items = texts.map .string ∧ ∀ s ∈ texts, Text.IsTrimmed s := by
  refine ⟨(items.map Text.trim).filter (· ≠ ""), rfl, fun t ht => ?_⟩
  obtain ⟨hm, hne⟩ := List.mem_filter.mp ht
  obtain ⟨s, -, rfl⟩ := List.mem_map.mp hm
  rw [decide_eq_true_eq] at hne
  exact Text.isTrimmed_trim (Bool.eq_false_iff.mpr (mt Text.isBlank_iff.mp hne))

theorem nonBlankItems_of_trimmed (h : ∀ s ∈ items, Text.IsTrimmed s) :
    nonBlankItems items = items.map .string := by
  induction items with
  | nil => rfl
  | cons s items ih =>
    obtain ⟨hs, hi⟩ := List.forall_mem_cons.mp h
    rw [nonBlankItems_cons, if_neg (Bool.not_eq_true _ ▸ hs.not_blank), hs.trim_eq, ih hi,
      List.map_cons]

/-- The values in a cell of which a text is not split. -/
def entries : Cell → List Value
  | text s => nonBlankItems [s]
  | list items => nonBlankItems items
  | number x => [.ofNumber x]
  | bool b => [.bool b]

theorem entries_eq_nil_iff {cell : Cell} : cell.entries = [] ↔ cell.isBlank = true := by
  cases cell with
  | text s => simp [entries, nonBlankItems_eq_nil_iff, isBlank]
  | list items => exact nonBlankItems_eq_nil_iff
  | number x => simp [entries, isBlank]
  | bool b => simp [entries, isBlank]

theorem values_eq_nil_of_isBlank {cell : Cell} (h : cell.isBlank = true) : cell.values = [] := by
  cases cell with
  | text s =>
    have hcomma : ∀ c ∈ s.toList, (c == ',') = false := by
      intro c hc
      rw [beq_eq_false_iff_ne]
      rintro rfl
      exact absurd (List.all_eq_true.mp h _ hc) (by decide)
    have hsplit : splitAtCommas s = [s] := by
      rw [splitAtCommas, List.splitOn, List.splitOnP_eq_singleton hcomma, List.map_singleton,
        String.ofList_toList]
    rw [values, hsplit]
    exact entries_eq_nil_iff.mpr h
  | list items => exact nonBlankItems_eq_nil_iff.mpr h
  | number x => cases h
  | bool b => cases h

theorem singleValue_some (operator : Operator) (cell : Cell) :
    singleValue operator (some cell) =
      match cell.entries with
      | [] => .error (.missingValue operator)
      | [value] => .ok value
      | values => .error (.unexpectedList operator values.length) := by
  by_cases hb : cell.isBlank = true
  · simp [singleValue, hb, entries_eq_nil_iff.mpr hb]
  · have hne := mt entries_eq_nil_iff.mp hb
    cases cell with
    | text s =>
      have hs : Text.isBlank s ≠ true := hb
      have he : entries (.text s) = [.string (Text.trim s)] := by
        rw [entries, nonBlankItems_cons, if_neg hs]
        rfl
      simp only [singleValue, if_neg hb, he]
    | number x => rfl
    | bool b => rfl
    | list items =>
      simp only [singleValue, if_neg hb, entries] at hne ⊢
      cases hi : nonBlankItems items with
      | nil => exact absurd hi hne
      | cons value values => cases values <;> rfl

theorem singleValue_eq_ok_iff :
    singleValue operator cell = .ok value ↔ ∃ c, cell = some c ∧ c.entries = [value] := by
  cases cell with
  | none => simp [singleValue]
  | some c =>
    rw [singleValue_some]
    rcases hc : c.entries with _ | ⟨v, _ | ⟨w, vs⟩⟩ <;> simp [hc]

theorem singleValue_text (operator : Operator) (h : Text.IsTrimmed s) :
    singleValue operator (some (.text s)) = .ok (.string s) :=
  singleValue_eq_ok_iff.mpr ⟨_, rfl, nonBlankItems_of_trimmed (List.forall_mem_singleton.mpr h)⟩

theorem singleValue_eq_error_iff :
    singleValue operator cell = .error violation ↔
      (∀ c ∈ cell, c.isBlank = true) ∧ .missingValue operator = violation ∨
        ∃ c, cell = some c ∧ 2 ≤ c.entries.length ∧
          .unexpectedList operator c.entries.length = violation := by
  cases cell with
  | none => simp [singleValue]
  | some c =>
    rw [singleValue_some]
    simp only [Option.mem_def, Option.some.injEq, forall_eq', ← entries_eq_nil_iff]
    rcases hc : c.entries with _ | ⟨v, _ | ⟨w, vs⟩⟩ <;> simp [hc]

theorem valueList_eq_ok_iff {values : List Value} :
    valueList operator cell = .ok values ↔
      ∃ c, cell = some c ∧ c.values = values ∧ values ≠ [] := by
  cases cell with
  | none => simp [valueList]
  | some c =>
    rw [valueList]
    split
    · rename_i h
      simp only [reduceCtorEq, Option.some.injEq, exists_eq_left', h, false_iff, not_and, not_not]
      exact Eq.symm
    · rename_i h
      simp only [Except.ok.injEq, Option.some.injEq, exists_eq_left']
      exact ⟨fun he => ⟨he, he ▸ h⟩, And.left⟩

theorem valueList_list (operator : Operator) (hne : items ≠ [])
    (h : ∀ s ∈ items, Text.IsTrimmed s) :
    valueList operator (some (.list items)) = .ok (items.map .string) :=
  valueList_eq_ok_iff.mpr ⟨_, rfl, nonBlankItems_of_trimmed h, by simpa using hne⟩

theorem valueList_eq_error_iff :
    valueList operator cell = .error violation ↔
      cell = none ∧ .missingValue operator = violation ∨
        ∃ c, cell = some c ∧ c.values = [] ∧ .emptyValueList operator = violation := by
  cases cell with
  | none => simp [valueList]
  | some c =>
    rw [valueList]
    split
    · rename_i h
      simp [h]
    · rename_i h
      simp [h]

end Cell

namespace Constraint

variable {cell : Option Cell} {operator : Operator} {violation : Violation}
  {constraint : Constraint}

/-- Why an operator does not take its values from a cell. -/
inductive Refused (cell : Option Cell) : Operator → Violation → Prop
  | blank {operator : Operator} : operator = .filter ∨ operator = .exclude →
      (∀ c ∈ cell, c.isBlank = true) → Refused cell operator (.missingValue operator)
  | several {operator : Operator} {c : Cell} : operator = .filter ∨ operator = .exclude →
      cell = some c → 2 ≤ c.entries.length →
      Refused cell operator (.unexpectedList operator c.entries.length)
  | noCell : cell = none → Refused cell .contain (.missingValue .contain)
  | noValues {c : Cell} : cell = some c → c.values = [] →
      Refused cell .contain (.emptyValueList .contain)

theorem refused_of_singleValue (ho : operator = .filter ∨ operator = .exclude)
    (h : Cell.singleValue operator cell = .error violation) : Refused cell operator violation := by
  rcases Cell.singleValue_eq_error_iff.mp h with ⟨hb, rfl⟩ | ⟨c, hc, hn, rfl⟩
  · exact .blank ho hb
  · exact .several ho hc hn

theorem ofCell_eq_error_iff : ofCell cell operator = .error violation ↔
    Refused cell operator violation := by
  constructor
  · intro h
    cases operator with
    | filter => exact refused_of_singleValue (.inl rfl) (map_eq_error_iff.mp h)
    | exclude => exact refused_of_singleValue (.inr rfl) (map_eq_error_iff.mp h)
    | contain =>
      rcases Cell.valueList_eq_error_iff.mp (map_eq_error_iff.mp h) with
        ⟨hn, rfl⟩ | ⟨c, hc, hv, rfl⟩
      · exact .noCell hn
      · exact .noValues hc hv
    | unfilter => cases h
    | present => cases h
  · intro h
    cases h with
    | blank ho hb =>
      have hv : Cell.singleValue operator cell = .error (.missingValue operator) :=
        Cell.singleValue_eq_error_iff.mpr (.inl ⟨hb, rfl⟩)
      rcases ho with rfl | rfl <;> exact map_eq_error_iff.mpr hv
    | @several _ c ho hc hn =>
      have hv : Cell.singleValue operator cell =
          .error (.unexpectedList operator c.entries.length) :=
        Cell.singleValue_eq_error_iff.mpr (.inr ⟨c, hc, hn, rfl⟩)
      rcases ho with rfl | rfl <;> exact map_eq_error_iff.mpr hv
    | noCell hn =>
      exact map_eq_error_iff.mpr (Cell.valueList_eq_error_iff.mpr (.inl ⟨hn, rfl⟩))
    | noValues hc hv =>
      exact map_eq_error_iff.mpr (Cell.valueList_eq_error_iff.mpr (.inr ⟨_, hc, hv, rfl⟩))

/-- What an operator takes from a cell. -/
inductive Taken (cell : Option Cell) : Constraint → Prop
  | filter {c : Cell} {value : Value} : cell = some c → c.entries = [value] →
      Taken cell (.filter value)
  | exclude {c : Cell} {value : Value} : cell = some c → c.entries = [value] →
      Taken cell (.exclude value)
  | contain {c : Cell} {values : List Value} : cell = some c → c.values = values → values ≠ [] →
      Taken cell (.contain values)
  | unfilter : Taken cell .unfilter
  | present : Taken cell .present

theorem ofCell_eq_ok_iff : ofCell cell operator = .ok constraint ↔
    constraint.operator = operator ∧ Taken cell constraint := by
  constructor
  · intro h
    cases operator with
    | filter =>
      obtain ⟨value, hv, rfl⟩ := map_eq_ok_iff.mp h
      obtain ⟨c, hc, he⟩ := Cell.singleValue_eq_ok_iff.mp hv
      exact ⟨rfl, .filter hc he⟩
    | exclude =>
      obtain ⟨value, hv, rfl⟩ := map_eq_ok_iff.mp h
      obtain ⟨c, hc, he⟩ := Cell.singleValue_eq_ok_iff.mp hv
      exact ⟨rfl, .exclude hc he⟩
    | contain =>
      obtain ⟨values, hv, rfl⟩ := map_eq_ok_iff.mp h
      obtain ⟨c, hc, he, hne⟩ := Cell.valueList_eq_ok_iff.mp hv
      exact ⟨rfl, .contain hc he hne⟩
    | unfilter =>
      cases h
      exact ⟨rfl, .unfilter⟩
    | present =>
      cases h
      exact ⟨rfl, .present⟩
  · rintro ⟨rfl, h⟩
    cases h with
    | filter hc he =>
      exact map_eq_ok_iff.mpr ⟨_, Cell.singleValue_eq_ok_iff.mpr ⟨_, hc, he⟩, rfl⟩
    | exclude hc he =>
      exact map_eq_ok_iff.mpr ⟨_, Cell.singleValue_eq_ok_iff.mpr ⟨_, hc, he⟩, rfl⟩
    | contain hc he hne =>
      exact map_eq_ok_iff.mpr ⟨_, Cell.valueList_eq_ok_iff.mpr ⟨_, hc, he, hne⟩, rfl⟩
    | unfilter => rfl
    | present => rfl

end Constraint

end TallyRules
