import TallyRules.Proofs.Json.Number
import TallyRules.Row.Json
import TallyRules.Value.Json

/-! # Kinds of values and cells

Nothing in the text of a value, a cell or a row says of which kind it is, but
no kind is written as another one is. So each is read back as it was, but for
numbers that are not integers: what a finite one is read as is a number, though
it may be another one, and what is not finite is not read at all.
-/

namespace TallyRules

open Json (decode Reading)

namespace Value

def NoFloat : Value → Prop
  | float _ => False
  | int _ => True
  | bool _ => True
  | string _ => True

variable {value : Value} {x : Binary64}

theorem decode_text (h : value.NoFloat) : decode ofReading value.toJson.text = .ok value := by
  cases value with
  | float x => exact h.elim
  | bool b => exact Json.decode_text ofReading trivial
  | string s => exact Json.decode_text ofReading trivial
  | int n =>
    have hlt : n.toInt < UInt64.size := by
      have hsize : UInt64.size = 2 ^ 64 := rfl
      have hn := n.toInt_lt
      omega
    have hvalue : ofJson? (.number (.integer n.toInt)) = some (int n) := by
      rw [ofJson?, if_pos ⟨n.minValue_le_toInt, n.toInt_le⟩, Int64.ofInt_toInt]
    rw [toJson, Json.decode_integer ofReading n.minValue_le_toInt hlt]
    simp only [ofReading, Reading.toJson, Except.map, Except.mapError, bind, Except.bind, hvalue]
    rfl

theorem exists_decode_float (hx : x.units?.isSome) :
    ∃ y, decode ofReading (float x).toJson.text = .ok (float y) := by
  obtain ⟨y, hy⟩ := Json.exists_decode_float ofReading hx
  exact ⟨y, hy⟩

end Value

namespace Cell

def NoNumber : Cell → Prop
  | number _ => False
  | bool _ => True
  | text _ => True
  | list _ => True

variable {cell : Cell} {x : Binary64}

theorem texts?_map (items : List String) : texts? (items.map .string) = some items := by
  induction items with
  | nil => rfl
  | cons s items ih =>
    rw [List.map_cons, texts?, ih]
    rfl

theorem itemsToJson_strings (room : Nat) (items : List String) :
    Reading.itemsToJson room (Json.readings (items.map .string)) = .ok (items.map .string) := by
  induction items with
  | nil => rfl
  | cons s items ih =>
    rw [List.map_cons, Json.readings, Reading.itemsToJson, ih]
    rfl

theorem noNumberIn_strings (items : List String) : Json.NoNumberIn (items.map .string) := by
  induction items with
  | nil => trivial
  | cons s items ih => exact ⟨trivial, ih⟩

theorem NoNumber.toJson (h : cell.NoNumber) : cell.toJson.NoNumber := by
  cases cell with
  | number x => exact h.elim
  | bool b => trivial
  | text s => trivial
  | list items =>
    rw [Cell.toJson, Json.NoNumber]
    exact noNumberIn_strings items

/-- No kind of cells takes what another kind is written as. -/
theorem NoNumber.ofReading_reading (h : cell.NoNumber) (room : Nat) :
    ofReading (room + 1) cell.toJson.reading = .ok cell := by
  cases cell with
  | number x => exact h.elim
  | bool b => rfl
  | text s => rfl
  | list items =>
    have hitems := itemsToJson_strings room items
    simp only [ofReading, Cell.toJson, Json.reading, Reading.toJson, hitems]
    simp [Json.close, ofJson?, texts?_map, bind, Except.bind, pure, Except.pure]

theorem decode_text (h : cell.NoNumber) : decode ofReading cell.toJson.text = .ok cell := by
  rw [Json.decode_text ofReading h.toJson]
  exact h.ofReading_reading 126

theorem exists_decode_number (hx : x.units?.isSome) :
    ∃ y, decode ofReading (number x).toJson.text = .ok (number y) := by
  obtain ⟨y, hy⟩ := Json.exists_decode_float ofReading hx
  exact ⟨y, hy⟩

end Cell

namespace Row

variable {row : Row}

theorem pairOfReading_reading {cell : Cell} (h : cell.NoNumber) (column : String) (room : Nat) :
    pairOfReading (room + 2) (Json.array [.string column, cell.toJson]).reading =
      .ok (column, cell) := by
  have hcell := h.ofReading_reading room
  simp only [Json.reading, Json.readings, pairOfReading, Json.enter, Reading.toText, hcell]
  rfl

theorem mapM_pairOfReading {cells : List (String × Cell)}
    (h : ∀ entry ∈ cells, entry.2.NoNumber) (room : Nat) :
    (Json.readings (cells.map fun (column, cell) => .array [.string column, cell.toJson])).mapM
      (pairOfReading (room + 2)) = .ok cells := by
  induction cells with
  | nil => rfl
  | cons entry cells ih =>
    obtain ⟨hentry, hcells⟩ := List.forall_mem_cons.mp h
    rw [List.map_cons, Json.readings, List.mapM_cons, pairOfReading_reading hentry, ih hcells]
    rfl

theorem noNumber_toJson (h : ∀ entry ∈ row.cells, entry.2.NoNumber) : row.toJson.NoNumber := by
  rw [toJson, Json.NoNumber]
  generalize row.cells = cells at h
  induction cells with
  | nil => trivial
  | cons entry cells ih =>
    obtain ⟨hentry, hcells⟩ := List.forall_mem_cons.mp h
    refine ⟨?_, ih hcells⟩
    rw [Json.NoNumber]
    exact ⟨trivial, hentry.toJson, trivial⟩

theorem decode_text (h : ∀ entry ∈ row.cells, entry.2.NoNumber) :
    decode ofReading row.toJson.text = .ok row := by
  have hcells := mapM_pairOfReading h 124
  rw [Json.decode_text ofReading (noNumber_toJson h), Json.greatestDepth]
  simp only [ofReading, toJson, Json.reading, Reading.toList, Json.enter, hcells]
  rfl

end Row

/-- Values, cells and rows are read back from their texts as they were, and of the same kind. A
finite number is read back as a number, whether or not it is an integer; what is not finite is
refused. -/
theorem decode_text_keeps_kind :
    (∀ value : Value, value.NoFloat → decode Value.ofReading value.toJson.text = .ok value) ∧
    (∀ cell : Cell, cell.NoNumber → decode Cell.ofReading cell.toJson.text = .ok cell) ∧
    (∀ row : Row, (∀ entry ∈ row.cells, entry.2.NoNumber) →
      decode Row.ofReading row.toJson.text = .ok row) ∧
    (∀ x : Binary64, x.units?.isSome →
      (∃ y, decode Value.ofReading (Value.float x).toJson.text = .ok (.float y)) ∧
      ∃ y, decode Cell.ofReading (Cell.number x).toJson.text = .ok (.number y)) ∧
    (∀ x : Binary64, x.units? = none →
      decode Value.ofReading (Value.float x).toJson.text = .error (.mismatch (.noForm "Value")) ∧
      decode Cell.ofReading (Cell.number x).toJson.text = .error (.mismatch (.noForm "Cell"))) :=
  ⟨fun _ => Value.decode_text, fun _ => Cell.decode_text, fun _ => Row.decode_text,
    fun _ hx => ⟨Value.exists_decode_float hx, Cell.exists_decode_number hx⟩,
    fun _ hx => ⟨Json.decode_of_not_finite Value.ofReading hx,
      Json.decode_of_not_finite Cell.ofReading hx⟩⟩

/-- A row with three spellings of one column and texts that look like other kinds, and an integer
as a floating-point number. -/
theorem decode_text_keeps_kind_respelt :
    let row : Row := ⟨[("Metric", .text "3"), ("metric", .bool true), ("metric", .text "true"),
      (" METRIC", .list ["null", "", "[]"]), ("metric", .list [])]⟩
    decode Row.ofReading row.toJson.text = .ok row ∧
      decode Value.ofReading (Value.string "-3").toJson.text = .ok (.string "-3") ∧
      decode Cell.ofReading (Cell.text "false").toJson.text = .ok (.text "false") ∧
      (∃ y, decode Value.ofReading (Value.float (.ofInt 3)).toJson.text = .ok (.float y)) ∧
      decode Value.ofReading (Value.float .nan).toJson.text =
        .error (.mismatch (.noForm "Value")) := by
  intro row
  obtain ⟨hvalues, hcells, hrows, hfinite, hothers⟩ := decode_text_keeps_kind
  refine ⟨hrows row ?_, hvalues _ trivial, hcells _ trivial, (hfinite _ ?_).1, (hothers _ rfl).1⟩
  · simp [row, Cell.NoNumber]
  · decide +kernel

end TallyRules
