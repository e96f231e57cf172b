import TallyRules.Text.AsciiCase
import TallyRules.Text.Blank
import TallyRules.Value

/-! # Rows of a sheet

A row holds cells under column names, in the order in which the columns were
first set. Two names are of one column if they are equal once trimmed, up to
the case of ASCII letters; a look-up finds the first of them.
-/

namespace TallyRules

inductive Cell
  | bool (b : Bool)
  | number (x : Binary64)
  | text (s : String)
  | list (items : List String)
  deriving DecidableEq

namespace Cell

/-- Holds of a blank text and of a list of blank texts. -/
def isBlank : Cell → Bool
  | text s => Text.isBlank s
  | list items => items.all Text.isBlank
  | bool _ => false
  | number _ => false

/-- The text of a text cell, trimmed. -/
def text? : Cell → Option String
  | text s => some (Text.trim s)
  | _ => none

/-- The cell as a label: numbers and truth values are spelt out, and lists are joined. -/
def label : Cell → String
  | text s => Text.trim s
  | number x => (Value.ofNumber x).text
  | bool b => toString b
  | list items => Text.trim (String.intercalate "," items)

end Cell

def sameColumn (a b : String) : Bool :=
  Text.eqIgnoringCase (Text.trim a) (Text.trim b)

theorem sameColumn_iff {a b : String} :
    sameColumn a b = true ↔
      (Text.trim a).toList.map Char.toLower = (Text.trim b).toList.map Char.toLower :=
  Text.eqIgnoringCase_iff

@[simp]
theorem sameColumn_refl (a : String) : sameColumn a a = true :=
  sameColumn_iff.mpr rfl

theorem sameColumn_comm (a b : String) : sameColumn a b = sameColumn b a := by
  rw [Bool.eq_iff_iff, sameColumn_iff, sameColumn_iff, eq_comm]

theorem sameColumn_congr {a b : String} (h : sameColumn a b = true) (c : String) :
    sameColumn a c = sameColumn b c := by
  rw [Bool.eq_iff_iff, sameColumn_iff, sameColumn_iff, sameColumn_iff.mp h]

structure Row where
  cells : List (String × Cell)
  deriving DecidableEq, Inhabited

namespace Row

def empty : Row := ⟨[]⟩

def findCell (column : String) : List (String × Cell) → Option Cell
  | [] => none
  | (name, cell) :: cells => if sameColumn name column then some cell else findCell column cells

/-- Puts a cell in the place of the one in its column, or at the end. -/
def putCell (column : String) (cell : Cell) : List (String × Cell) → List (String × Cell)
  | [] => [(column, cell)]
  | (name, old) :: cells =>
    if sameColumn name column then (name, cell) :: cells
    else (name, old) :: putCell column cell cells

theorem findCell_putCell (c d : String) (cell : Cell) (cells : List (String × Cell)) :
    findCell d (putCell c cell cells) =
      if sameColumn c d then some cell else findCell d cells := by
  induction cells with
  | nil => rfl
  | cons entry cells ih =>
    obtain ⟨name, old⟩ := entry
    by_cases h : sameColumn name c = true
    · simp only [putCell, h, ↓reduceIte, findCell, sameColumn_congr h d]
      split <;> rfl
    · simp only [putCell, h, Bool.false_eq_true, ↓reduceIte, findCell, ih]
      by_cases hd : sameColumn name d = true
      · have hc : sameColumn c d ≠ true := fun hc =>
          h ((sameColumn_congr hd c).trans ((sameColumn_comm d c).trans hc))
        simp [hd, hc]
      · simp [hd]

def get? (row : Row) (column : String) : Option Cell :=
  findCell column row.cells

def insert (row : Row) (column : String) (cell : Cell) : Row :=
  ⟨putCell column cell row.cells⟩

def ofCells (cells : List (String × Cell)) : Row :=
  cells.foldl (fun row entry => row.insert entry.1 entry.2) empty

theorem get?_insert (row : Row) (c d : String) (cell : Cell) :
    (row.insert c cell).get? d = if sameColumn c d then some cell else row.get? d :=
  findCell_putCell c d cell row.cells

def size (row : Row) : Nat :=
  row.cells.length

end Row

end TallyRules
