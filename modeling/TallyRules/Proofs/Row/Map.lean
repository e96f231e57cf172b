import Mathlib.Data.List.Induction
import TallyRules.Row

/-! # Rows as maps

A row is a map from columns to cells that keeps the order of its columns. Setting a cell replaces
the first cell of its column where it stands, or adds a column at the end. So it does in a row that
was read with several cells in one column, and in a row that was only ever set there are none: each
name stands as it was first written, in the order of the first writings, over the cell that was
written last.
-/

namespace TallyRules

/-- What names of columns are told apart by: the name without blanks around it, in small letters. -/
def columnKey (name : String) : String :=
  Text.lower (Text.trim name)

theorem sameColumn_iff_columnKey {a b : String} :
    sameColumn a b = true ↔ columnKey a = columnKey b := by
  rw [sameColumn_iff, columnKey, columnKey, Text.lower, Text.lower, String.ofList_inj]

namespace Row

variable {row : Row} {column : String}

def names (row : Row) : List String :=
  row.cells.map (·.1)

def Distinct (row : Row) : Prop :=
  (row.names.map columnKey).Nodup

instance (row : Row) : Decidable row.Distinct :=
  inferInstanceAs (Decidable (List.Nodup _))

theorem findCell_eq_find? (column : String) (cells : List (String × Cell)) :
    findCell column cells =
      (cells.find? fun entry => columnKey entry.1 = columnKey column).map (·.2) := by
  induction cells with
  | nil => rfl
  | cons entry cells ih =>
    rw [findCell, List.find?_cons, ih]
    by_cases h : columnKey entry.1 = columnKey column
    · simp [sameColumn_iff_columnKey.mpr h, h]
    · simp [mt sameColumn_iff_columnKey.mp h, h]

theorem get?_eq_none_iff : row.get? column = none ↔ columnKey column ∉ row.names.map columnKey := by
  simp only [get?, findCell_eq_find?, Option.map_eq_none_iff, List.find?_eq_none, decide_eq_true_eq,
    names, List.map_map, List.mem_map, Function.comp_apply, not_exists, not_and]

/-- A cell is added at the end if its column is new, and else takes the place of the first cell of
the column, under the name that stands there. -/
theorem putCell_cases (column : String) (cell : Cell) (cells : List (String × Cell)) :
    (findCell column cells = none ∧ putCell column cell cells = cells ++ [(column, cell)]) ∨
      ∃ before name old after, cells = before ++ (name, old) :: after ∧
        findCell column cells = some old ∧
        putCell column cell cells = before ++ (name, cell) :: after := by
  induction cells with
  | nil => exact .inl ⟨rfl, rfl⟩
  | cons entry cells ih =>
    obtain ⟨name, old⟩ := entry
    by_cases h : sameColumn name column = true
    · exact .inr ⟨[], name, old, cells, rfl, by simp [findCell, h], by simp [putCell, h]⟩
    · rcases ih with ⟨hn, hp⟩ | ⟨before, other, found, after, rfl, hf, hp⟩
      · exact .inl ⟨by simp [findCell, h, hn], by simp [putCell, h, hp]⟩
      · exact .inr ⟨(name, old) :: before, other, found, after, rfl, by simp [findCell, h, hf],
          by simp [putCell, h, hp]⟩

theorem names_insert (row : Row) (column : String) (cell : Cell) :
    (row.insert column cell).names =
      if row.get? column = none then row.names ++ [column] else row.names := by
  rcases putCell_cases column cell row.cells with ⟨hn, hp⟩ | ⟨_, _, _, _, hc, hf, hp⟩
  · simp [names, insert, get?, hn, hp]
  · simp only [names, insert, get?, hf, hp, reduceCtorEq, ↓reduceIte]
    simp [hc]

theorem size_insert (row : Row) (column : String) (cell : Cell) :
    (row.insert column cell).size =
      if row.get? column = none then row.size + 1 else row.size := by
  have hs (row : Row) : row.size = row.names.length := (List.length_map _).symm
  rw [hs, hs, names_insert]
  split <;> simp

theorem Distinct.insert (h : row.Distinct) (column : String) (cell : Cell) :
    (row.insert column cell).Distinct := by
  rw [Distinct, names_insert]
  split
  · rename_i hn
    rw [List.map_append, List.map_singleton, (List.perm_append_singleton _ _).nodup_iff]
    exact List.nodup_cons.mpr ⟨get?_eq_none_iff.mp hn, h⟩
  · exact h

section History

inductive Change
  /-- A cell is set, in the row or in a copy that takes its place. -/
  | set (column : String) (cell : Cell)
  /-- The row of some cells takes the place of this one. -/
  | collect (cells : List (String × Cell))

def Change.apply (row : Row) : Change → Row
  | set column cell => row.insert column cell
  | collect cells => ofCells cells

/-- The cells that were written when a change is made, after those that were written before. -/
def Change.write (cells : List (String × Cell)) : Change → List (String × Cell)
  | set column cell => cells ++ [(column, cell)]
  | collect others => others

def ofHistory (changes : List Change) : Row :=
  changes.foldl Change.apply empty

/-- What the changes write, from the last collection on. -/
def written (changes : List Change) : List (String × Cell) :=
  changes.foldl Change.write []

/-- The names of which no earlier one is of the same column. -/
def firstNames : List String → List String
  | [] => []
  | name :: names => name :: (firstNames names).filter (columnKey · ≠ columnKey name)

def lastCell (column : String) (cells : List (String × Cell)) : Option Cell :=
  (cells.filter fun entry => columnKey entry.1 = columnKey column).getLast?.map (·.2)

theorem ofCells_append_singleton (cells : List (String × Cell)) (column : String) (cell : Cell) :
    ofCells (cells ++ [(column, cell)]) = (ofCells cells).insert column cell := by
  simp [ofCells]

theorem ofHistory_eq (changes : List Change) : ofHistory changes = ofCells (written changes) := by
  have hstep (cells : List (String × Cell)) (change : Change) :
      change.apply (ofCells cells) = ofCells (change.write cells) := by
    cases change with
    | set column cell => exact (ofCells_append_singleton cells column cell).symm
    | collect others => rfl
  change changes.foldl Change.apply (ofCells []) = ofCells (changes.foldl Change.write [])
  exact List.foldl_hom ofCells hstep

theorem mem_keys_firstNames_iff {key : String} {names : List String} :
    key ∈ (firstNames names).map columnKey ↔ key ∈ names.map columnKey := by
  induction names with
  | nil => rfl
  | cons name names ih =>
    simp only [List.mem_map] at ih
    simp only [firstNames, List.map_cons, List.mem_cons, List.mem_map, List.mem_filter,
      decide_eq_true_eq]
    constructor
    · rintro (rfl | ⟨other, ⟨ho, -⟩, rfl⟩)
      · exact .inl rfl
      · exact .inr (ih.mp ⟨other, ho, rfl⟩)
    · rintro (rfl | hk)
      · exact .inl rfl
      · obtain ⟨other, ho, rfl⟩ := ih.mpr hk
        by_cases he : columnKey other = columnKey name
        · exact .inl he
        · exact .inr ⟨other, ⟨ho, he⟩, rfl⟩

theorem firstNames_append_singleton (names : List String) (name : String) :
    firstNames (names ++ [name]) =
      if columnKey name ∈ names.map columnKey then firstNames names
      else firstNames names ++ [name] := by
  induction names with
  | nil => rfl
  | cons first names ih =>
    simp only [List.cons_append, firstNames, ih, List.map_cons, List.mem_cons]
    by_cases hk : columnKey name = columnKey first
    · split <;> simp [hk]
    · by_cases hm : columnKey name ∈ names.map columnKey <;> simp only [hk, hm] <;> simp [hk]

/-- Names keep the spelling and the order in which their columns were first written. -/
theorem names_ofCells (cells : List (String × Cell)) :
    (ofCells cells).names = firstNames (cells.map (·.1)) := by
  induction cells using List.reverseRecOn with
  | nil => rfl
  | append_singleton cells entry ih =>
    obtain ⟨column, cell⟩ := entry
    rw [ofCells_append_singleton, names_insert, List.map_append, List.map_singleton,
      firstNames_append_singleton, ← ih]
    simp only [get?_eq_none_iff, ih, mem_keys_firstNames_iff, ite_not]

theorem get?_ofCells (cells : List (String × Cell)) (column : String) :
    (ofCells cells).get? column = lastCell column cells := by
  induction cells using List.reverseRecOn with
  | nil => rfl
  | append_singleton cells entry ih =>
    obtain ⟨name, cell⟩ := entry
    rw [ofCells_append_singleton, get?_insert, ih, lastCell, lastCell, List.filter_append]
    by_cases h : columnKey name = columnKey column
    · simp [sameColumn_iff_columnKey.mpr h, h]
    · simp [mt sameColumn_iff_columnKey.mp h, h]

theorem distinct_ofCells (cells : List (String × Cell)) : (ofCells cells).Distinct := by
  induction cells using List.reverseRecOn with
  | nil => exact List.nodup_nil
  | append_singleton cells entry ih =>
    rw [ofCells_append_singleton]
    exact ih.insert entry.1 entry.2

/-- A row is a map from columns to cells in the order of its columns, as far as one change is
concerned even if it was read with several cells in a column. -/
theorem ordered_map :
    (∀ (row : Row) (c d : String) (cell : Cell),
      (row.insert c cell).get? d =
          (if columnKey c = columnKey d then some cell else row.get? d) ∧
        (row.insert c cell).size = (if row.get? c = none then row.size + 1 else row.size) ∧
        row.names <+: (row.insert c cell).names) ∧
      ∀ changes : List Change,
        (ofHistory changes).Distinct ∧
          (ofHistory changes).names = firstNames ((written changes).map (·.1)) ∧
          ∀ c, (ofHistory changes).get? c = lastCell c (written changes) := by
  constructor
  · intro row c d cell
    refine ⟨?_, size_insert row c cell, ?_⟩
    · rw [get?_insert]
      simp only [sameColumn_iff_columnKey]
    · rw [names_insert]
      split
      · exact List.prefix_append row.names [c]
      · exact List.prefix_refl row.names
  · intro changes
    rw [ofHistory_eq]
    exact ⟨distinct_ofCells _, names_ofCells _, get?_ofCells _⟩

/-- Of several cells in one column the first is replaced, and the others are kept. -/
example :
    (Row.mk [("B", .bool true), ("a", .text "1"), (" A ", .list [])]).insert "A" (.text "2") =
      ⟨[("B", .bool true), ("a", .text "2"), (" A ", .list [])]⟩ := by
  decide

end History

end Row

end TallyRules
