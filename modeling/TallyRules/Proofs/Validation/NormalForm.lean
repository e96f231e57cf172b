import TallyRules.Proofs.Number.Integer
import TallyRules.Proofs.RuleLine.Contents
import TallyRules.Proofs.Validation.WellFormed

/-! # Normal forms of rules

What is read from a cell is trimmed, and a number is read as it will be read again. So the rule in
a row can be written into a row of its own, and the rule in that row is the same: a text or a number
is written into a cell as it is, and the texts of a containment into a list, which keeps their
commas.
-/

namespace TallyRules

namespace Value

def toCell : Value → Cell
  | int n => .number (.ofInt n.toInt)
  | float x => .number x
  | bool b => .bool b
  | string s => .text s

/-- The cell that the values of a containment are written in: a list of texts, or another value that
stands alone. -/
def listCell : List Value → Cell
  | int n :: _ => (int n).toCell
  | float x :: _ => (float x).toCell
  | bool b :: _ => (bool b).toCell
  | values => .list (values.map unquoted)

theorem listCell_texts (items : List String) : listCell (items.map string) = .list items := by
  have hitems : (items.map string).map unquoted = items := by
    rw [List.map_map]
    exact List.map_id' items
  cases items with
  | nil => rfl
  | cons s items => exact congrArg Cell.list hitems

/-- Values as they are read from a cell: trimmed texts, or another value that stands alone. -/
inductive Read : List Value → Prop
  | texts {items : List String} : (∀ s ∈ items, Text.IsTrimmed s) → Read (items.map string)
  | number (x : Binary64) : Read [ofNumber x]
  | bool (b : Bool) : Read [bool b]

theorem entries_toCell_ofNumber (x : Binary64) : (ofNumber x).toCell.entries = [ofNumber x] := by
  rcases ofNumber_cases x with ⟨n, hn, hself⟩ | hx
  · rw [hn, toCell, Cell.entries, hself]
  · rw [hx, toCell, Cell.entries, hx]

namespace Read

variable {values : List Value} {value : Value} {s : String}

theorem isTrimmed (h : Read values) (hs : string s ∈ values) : Text.IsTrimmed s := by
  cases h with
  | texts ht =>
    obtain ⟨_, hm, ⟨⟩⟩ := List.mem_map.mp hs
    exact ht s hm
  | number x =>
    have hx := List.mem_singleton.mp hs
    rcases ofNumber_cases x with ⟨n, hn, -⟩ | hn
    · cases hx.trans hn
    · cases hx.trans hn
  | bool b => cases List.mem_singleton.mp hs

theorem entries_toCell (h : Read values) (hv : value ∈ values) :
    value.toCell.entries = [value] := by
  cases h with
  | texts ht =>
    obtain ⟨s, hs, rfl⟩ := List.mem_map.mp hv
    exact Cell.nonBlankItems_of_trimmed (List.forall_mem_singleton.mpr (ht s hs))
  | number x =>
    rw [List.mem_singleton.mp hv]
    exact entries_toCell_ofNumber x
  | bool b =>
    rw [List.mem_singleton.mp hv]
    rfl

theorem values_listCell (h : Read values) : (listCell values).values = values := by
  cases h with
  | texts ht =>
    rw [listCell_texts]
    exact Cell.nonBlankItems_of_trimmed ht
  | number x =>
    have hx := entries_toCell_ofNumber x
    rcases ofNumber_cases x with ⟨n, hn, -⟩ | hn
    · rw [hn] at hx ⊢
      exact hx
    · rw [hn] at hx ⊢
      exact hx
  | bool b => rfl

end Read

end Value

namespace Cell

theorem read_nonBlankItems (items : List String) : Value.Read (nonBlankItems items) := by
  obtain ⟨texts, he, ht⟩ := exists_nonBlankItems_eq items
  rw [he]
  exact .texts ht

theorem read_entries (cell : Cell) : Value.Read cell.entries := by
  cases cell with
  | text s => exact read_nonBlankItems [s]
  | list items => exact read_nonBlankItems items
  | number x => exact .number x
  | bool b => exact .bool b

theorem read_values (cell : Cell) : Value.Read cell.values := by
  cases cell with
  | text s => exact read_nonBlankItems (splitAtCommas s)
  | list items => exact read_nonBlankItems items
  | number x => exact .number x
  | bool b => exact .bool b

end Cell

namespace Constraint

variable {cell : Option Cell} {constraint : Constraint}

def cell? : Constraint → Option Cell
  | filter value => some value.toCell
  | exclude value => some value.toCell
  | contain values => some (Value.listCell values)
  | unfilter => none
  | present => none

theorem Taken.read (h : Taken cell constraint) : Value.Read constraint.values := by
  cases h with
  | @filter c value _ he =>
    have hread : Value.Read [value] := he ▸ c.read_entries
    exact hread
  | @exclude c value _ he =>
    have hread : Value.Read [value] := he ▸ c.read_entries
    exact hread
  | @contain c _ _ he _ => exact he ▸ c.read_values
  | unfilter => exact .texts (List.forall_mem_nil _)
  | present => exact .texts (List.forall_mem_nil _)

theorem Taken.cell? (h : Taken cell constraint) : Taken constraint.cell? constraint := by
  have hread := h.read
  cases h with
  | filter _ _ => exact .filter rfl (hread.entries_toCell (List.mem_singleton_self _))
  | exclude _ _ => exact .exclude rfl (hread.entries_toCell (List.mem_singleton_self _))
  | contain _ _ hne => exact .contain rfl hread.values_listCell hne
  | unfilter => exact .unfilter
  | present => exact .present

end Constraint

def Rule.toRow (columns : Columns) (rule : Rule) : Row :=
  RuleLine.row columns rule.metric rule.field rule.constraint.operator rule.constraint.cell?

namespace Row

variable {columns : Columns} {row : Row} {rule : Rule} {operator : Operator}

theorem toRule_toRow (hd : columns.Distinct) (h : row.toRule columns = .ok rule) :
    (rule.toRow columns).toRule columns = .ok rule := by
  obtain ⟨-, hf, -, ht⟩ := toRule_eq_ok_iff.mp h
  rw [Rule.toRow, RuleLine.toRule_row hd, hf.isTrimmed.trim_eq, if_neg hf.isTrimmed.ne_empty,
    Constraint.ofCell_eq_ok_iff.mpr ⟨rfl, ht.cell?⟩]
  rfl

theorem Checked.two_le_count {count : Nat}
    (h : Checked columns row (.error (.unexpectedList operator count))) :
    (operator = .filter ∨ operator = .exclude) ∧ 2 ≤ count := by
  cases h with
  | refused _ _ _ hr =>
    cases hr with
    | several ho _ hn => exact ⟨ho, hn⟩

theorem Checked.eq_contain (h : Checked columns row (.error (.emptyValueList operator))) :
    operator = .contain := by
  cases h with
  | refused _ _ _ hr =>
    cases hr with
    | noValues _ _ => rfl

/-- The rule in a row is trimmed, and is also the rule in the row that it is written in. A row is
rejected for its value only if its operator cannot take one from there. -/
theorem toRule_normal_form (columns : Columns) (row : Row) :
    (∀ rule, row.toRule columns = .ok rule →
      Text.IsTrimmed rule.field ∧
        (∀ s, .string s ∈ rule.constraint.values → Text.IsTrimmed s) ∧
        rule.constraint ≠ .contain [] ∧
        (columns.Distinct → (rule.toRow columns).toRule columns = .ok rule)) ∧
    (∀ operator count, row.toRule columns = .error (.unexpectedList operator count) →
      (operator = .filter ∨ operator = .exclude) ∧ 2 ≤ count) ∧
    (∀ operator, row.toRule columns = .error (.emptyValueList operator) → operator = .contain) ∧
    ∀ metric field constraint, row.MetricIs columns metric → row.FieldIs columns field →
      row.OperatorIs columns (Constraint.operator constraint) →
      constraint = .unfilter ∨ constraint = .present →
      row.toRule columns = .ok ⟨metric, field, constraint⟩ := by
  refine ⟨fun rule h => ?_, fun operator count h => ?_, fun operator h => ?_, ?_⟩
  · obtain ⟨-, hf, -, ht⟩ := toRule_eq_ok_iff.mp h
    exact ⟨hf.isTrimmed, fun _ hs => ht.read.isTrimmed hs, ht.ne_contain_nil,
      fun hd => toRule_toRow hd h⟩
  · exact (checked_iff.mpr h).two_le_count
  · exact (checked_iff.mpr h).eq_contain
  · rintro metric field _ hm hf ho (rfl | rfl)
    · exact (Checked.accepted hm hf ho .unfilter).toRule_eq
    · exact (Checked.accepted hm hf ho .present).toRule_eq

theorem toRule_normal_form_comma :
    let row : Row := ⟨[("Metric", .text "a numerator"), ("Field", .number (.ofInt 7)),
      ("Operator", .text "contains"), ("Value", .list [" a,b", "", "c "])]⟩
    let rule : Rule := ⟨.numerator, "7", .contain [.string "a,b", .string "c"]⟩
    Columns.Distinct {} ∧ row.toRule {} = .ok rule ∧
      rule.toRow {} = ⟨[("Metric", .text "numerator"), ("Field", .text "7"),
        ("Operator", .text "Contain"), ("Value", .list ["a,b", "c"])]⟩ ∧
      (rule.toRow {}).toRule {} = .ok rule := by
  intro row rule
  have hd : Columns.Distinct {} := by decide
  have hrule : row.toRule {} = .ok rule := by decide +kernel
  obtain ⟨-, -, -, hwritten⟩ := (toRule_normal_form {} row).1 rule hrule
  exact ⟨hd, hrule, by decide +kernel, hwritten hd⟩

end Row

end TallyRules
