import Mathlib.Logic.Relation
import TallyRules.Proofs.Row.Map
import TallyRules.Proofs.RuleLine.Rows
import TallyRules.Proofs.Text.Case

/-! # How a row is written

The same row can be written in many ways: its columns stand in any order and among others, with
blanks around their names and their texts, and with capitals or small letters in the names, the
metric and the operator. What is found in the columns of a rule is the same, but for the blanks
around a text, and for the letter case of a metric or an operator.
-/

namespace TallyRules

theorem columnKey_pad {left right : String} (hl : Text.isBlank left = true)
    (hr : Text.isBlank right = true) (s : String) :
    columnKey (left ++ s ++ right) = columnKey s := by
  rw [columnKey, Text.trim_pad hl hr, columnKey]

theorem columnKey_of_lower {s t : String} (h : Text.lower t = Text.lower s) :
    columnKey t = columnKey s := by
  rw [columnKey, ← Text.trim_lower, h, Text.trim_lower, columnKey]

theorem sameColumn_of_columnKey {a b : String} (h : columnKey a = columnKey b) (c : String) :
    sameColumn a c = sameColumn b c :=
  sameColumn_congr (sameColumn_iff_columnKey.mpr h) c

namespace Cell

def trimmed : Cell → Cell
  | text s => text (Text.trim s)
  | cell => cell

def folded : Cell → Cell
  | text s => text (columnKey s)
  | cell => cell

end Cell

/-- The columns that a rule is read from, each with what matters of its cell. -/
inductive Columns.Reads (columns : Columns) : String → (Cell → Cell) → Prop
  | metric : Reads columns columns.metric Cell.folded
  | field : Reads columns columns.field Cell.trimmed
  | operator : Reads columns columns.operator Cell.folded
  | value : Reads columns columns.value Cell.trimmed

theorem Columns.Distinct.apart_of_label {columns : Columns} (h : columns.Distinct) {name : String}
    (hn : sameColumn name columns.metric = true ∨ sameColumn name columns.operator = true) :
    sameColumn name columns.field = false ∧ sameColumn name columns.value = false := by
  obtain ⟨⟨hfo, -, hfm⟩, ⟨hov, -⟩, hvm⟩ := Columns.distinct_iff.mp h
  rcases hn with hn | hn
  · rw [sameColumn_congr hn, sameColumn_congr hn, sameColumn_comm, hfm, sameColumn_comm, hvm]
    exact ⟨rfl, rfl⟩
  · rw [sameColumn_congr hn, sameColumn_congr hn, sameColumn_comm, hfo, hov]
    exact ⟨rfl, rfl⟩

namespace Row

inductive Restyles (columns : Columns) : Row → Row → Prop
  | permute {cells others : List (String × Cell)} : cells.Perm others →
      Restyles columns ⟨cells⟩ ⟨others⟩
  | add {before after : List (String × Cell)} {name : String} {cell : Cell} :
      (∀ column ∈ [columns.metric, columns.field, columns.operator, columns.value],
        sameColumn name column = false) →
      Restyles columns ⟨before ++ after⟩ ⟨before ++ (name, cell) :: after⟩
  | padName {before after : List (String × Cell)} {name left right : String} {cell : Cell} :
      Text.isBlank left = true → Text.isBlank right = true →
      Restyles columns ⟨before ++ (name, cell) :: after⟩
        ⟨before ++ (left ++ name ++ right, cell) :: after⟩
  | padText {before after : List (String × Cell)} {name s left right : String} :
      Text.isBlank left = true → Text.isBlank right = true →
      Restyles columns ⟨before ++ (name, .text s) :: after⟩
        ⟨before ++ (name, .text (left ++ s ++ right)) :: after⟩
  | recaseName {before after : List (String × Cell)} {name other : String} {cell : Cell} :
      Text.lower other = Text.lower name →
      Restyles columns ⟨before ++ (name, cell) :: after⟩ ⟨before ++ (other, cell) :: after⟩
  /-- Letter case does not matter in the metric and the operator. -/
  | recaseText {before after : List (String × Cell)} {name s t : String} :
      sameColumn name columns.metric = true ∨ sameColumn name columns.operator = true →
      Text.lower t = Text.lower s →
      Restyles columns ⟨before ++ (name, .text s) :: after⟩ ⟨before ++ (name, .text t) :: after⟩

def Restyled (columns : Columns) : Row → Row → Prop :=
  Relation.ReflTransGen (Restyles columns)

def cellsIn (row : Row) (column : String) : List Cell :=
  (row.cells.filter fun entry => sameColumn entry.1 column).map (·.2)

section

variable {columns : Columns} {row other : Row} {column : String} {norm : Cell → Cell}

theorem get?_eq_head? (row : Row) (column : String) :
    row.get? column = (row.cellsIn column).head? := by
  obtain ⟨cells⟩ := row
  rw [get?, cellsIn]
  induction cells with
  | nil => rfl
  | cons entry cells ih =>
    obtain ⟨name, cell⟩ := entry
    by_cases h : sameColumn name column = true
    · simp [findCell, h]
    · simp [findCell, h, ih]

theorem Distinct.length_cellsIn_le (h : row.Distinct) (column : String) :
    (row.cellsIn column).length ≤ 1 := by
  have hkeys : ((row.cells.filter fun entry => sameColumn entry.1 column).map
      fun entry => columnKey entry.1) = List.replicate (row.cellsIn column).length
        (columnKey column) := by
    rw [cellsIn, List.length_map]
    refine List.eq_replicate_iff.mpr ⟨List.length_map _, ?_⟩
    simp only [List.mem_map, List.mem_filter, sameColumn_iff_columnKey]
    rintro _ ⟨entry, ⟨-, he⟩, rfl⟩
    exact he
  have hnodup : (row.cells.map fun entry => columnKey entry.1).Nodup := by
    rw [Distinct, names, List.map_map] at h
    exact h
  rw [← List.nodup_replicate (a := columnKey column), ← hkeys]
  exact hnodup.sublist (List.filter_sublist.map _)

theorem cellsIn_append (cells others : List (String × Cell)) (column : String) :
    cellsIn ⟨cells ++ others⟩ column = cellsIn ⟨cells⟩ column ++ cellsIn ⟨others⟩ column := by
  simp [cellsIn]

theorem cellsIn_cons (name : String) (cell : Cell) (cells : List (String × Cell))
    (column : String) :
    cellsIn ⟨(name, cell) :: cells⟩ column =
      if sameColumn name column = true then cell :: cellsIn ⟨cells⟩ column
      else cellsIn ⟨cells⟩ column := by
  rw [cellsIn, List.filter_cons]
  split <;> rfl

theorem map_cellsIn_replace {before after : List (String × Cell)} {name another : String}
    {cell replacement : Cell} (hname : columnKey another = columnKey name)
    (hcell : sameColumn name column = true → norm replacement = norm cell) :
    (cellsIn ⟨before ++ (another, replacement) :: after⟩ column).map norm =
      (cellsIn ⟨before ++ (name, cell) :: after⟩ column).map norm := by
  rw [cellsIn_append, cellsIn_append, cellsIn_cons, cellsIn_cons, sameColumn_of_columnKey hname]
  split
  · rename_i h
    simp [hcell h]
  · rfl

theorem Restyles.perm_cellsIn (h : Restyles columns row other) (hd : columns.Distinct)
    (hn : columns.Reads column norm) :
    ((other.cellsIn column).map norm).Perm ((row.cellsIn column).map norm) := by
  cases h with
  | permute hp => exact ((hp.filter _).map _ |>.map _).symm
  | @add before after name cell hnew =>
    have hname : sameColumn name column = false := by
      cases hn <;> exact hnew _ (by simp)
    rw [cellsIn_append, cellsIn_append, cellsIn_cons, hname]
    exact .refl _
  | padName hl hr => rw [map_cellsIn_replace (columnKey_pad hl hr _) fun _ => rfl]
  | padText hl hr =>
    rw [map_cellsIn_replace rfl fun _ => ?_]
    cases hn <;> simp [Cell.folded, Cell.trimmed, columnKey_pad hl hr, Text.trim_pad hl hr]
  | recaseName hlower => rw [map_cellsIn_replace (columnKey_of_lower hlower) fun _ => rfl]
  | @recaseText _ _ _ s t hlabel hlower =>
    rw [map_cellsIn_replace rfl fun hname => ?_]
    have hfolded : Cell.folded (.text t) = Cell.folded (.text s) :=
      congrArg Cell.text (columnKey_of_lower hlower)
    cases hn with
    | metric => exact hfolded
    | operator => exact hfolded
    -- a text in which the case was changed is in neither of the other columns
    | field => cases (hd.apart_of_label hlabel).1.symm.trans hname
    | value => cases (hd.apart_of_label hlabel).2.symm.trans hname

theorem Restyled.perm_cellsIn (h : Restyled columns row other) (hd : columns.Distinct)
    (hn : columns.Reads column norm) :
    ((other.cellsIn column).map norm).Perm ((row.cellsIn column).map norm) := by
  induction h with
  | refl => exact .refl _
  | tail _ hstep ih => exact (hstep.perm_cellsIn hd hn).trans ih

/-- What matters of the cells that are found stays the same. -/
theorem Restyled.map_get?_eq (h : Restyled columns row other) (hd : columns.Distinct)
    (hr : row.Distinct) (hn : columns.Reads column norm) :
    (other.get? column).map norm = (row.get? column).map norm := by
  have hp := h.perm_cellsIn hd hn
  have hle := hr.length_cellsIn_le column
  rw [get?_eq_head?, get?_eq_head?, ← List.head?_map, ← List.head?_map]
  rcases hc : row.cellsIn column with _ | ⟨cell, _ | ⟨second, cells⟩⟩
  · rw [hc] at hp
    rw [hp.eq_nil]
    rfl
  · rw [hc] at hp
    rw [hp.eq_singleton]
    rfl
  · simp [hc] at hle

/-- The cells that are found in two rows are read alike. -/
structure Alike (columns : Columns) (row other : Row) : Prop where
  metric : (other.get? columns.metric).map Cell.folded =
    (row.get? columns.metric).map Cell.folded
  field : (other.get? columns.field).map Cell.trimmed = (row.get? columns.field).map Cell.trimmed
  operator : (other.get? columns.operator).map Cell.folded =
    (row.get? columns.operator).map Cell.folded
  value : (other.get? columns.value).map Cell.trimmed = (row.get? columns.value).map Cell.trimmed

theorem Restyled.alike (h : Restyled columns row other) (hd : columns.Distinct)
    (hr : row.Distinct) : Alike columns row other where
  metric := h.map_get?_eq hd hr .metric
  field := h.map_get?_eq hd hr .field
  operator := h.map_get?_eq hd hr .operator
  value := h.map_get?_eq hd hr .value

end

end Row

end TallyRules
