import TallyRules.Proofs.RuleLine.Written
import TallyRules.Proofs.Validation.Checked
import TallyRules.Proofs.Validation.Rows
import TallyRules.Sheet

/-! # Rules that are read back

Rules of one metric that are written line by line are read back as they were.
The four columns must be told apart, so that each cell of a row stays as it is
set.
-/

namespace TallyRules

def Columns.Distinct (columns : Columns) : Prop :=
  [columns.field, columns.operator, columns.value, columns.metric].Pairwise
    fun a b => sameColumn a b = false

instance (columns : Columns) : Decidable columns.Distinct :=
  inferInstanceAs (Decidable (List.Pairwise _ _))

theorem Columns.distinct_iff {columns : Columns} : columns.Distinct ↔
    (sameColumn columns.field columns.operator = false ∧
      sameColumn columns.field columns.value = false ∧
      sameColumn columns.field columns.metric = false) ∧
    (sameColumn columns.operator columns.value = false ∧
      sameColumn columns.operator columns.metric = false) ∧
    sameColumn columns.value columns.metric = false := by
  simp [Distinct]

variable {columns : Columns} {metric : Metric} {field : String} {operator : Operator}

theorem Quotable.isTrimmed {s : String} (h : Quotable s) : Text.IsTrimmed s :=
  ⟨h.not_blank, h.trim_eq⟩

/-- The row says in its columns what it puts a constraint on, for which metric, and how. -/
structure Row.Names (columns : Columns) (row : Row) (metric : Metric) (field : String)
    (operator : Operator) : Prop where
  metric : row.get? columns.metric = some (.text metric.name)
  field : row.get? columns.field = some (.text field)
  operator : row.get? columns.operator = some (.text operator.name)

theorem RuleLine.names_baseRow (h : columns.Distinct) (metric : Metric) (field : String)
    (operator : Operator) :
    (baseRow columns metric field operator).Names columns metric field operator := by
  have hd := Columns.distinct_iff.mp h
  constructor <;> simp [baseRow, Row.ofCells, Row.get?_insert, hd, sameColumn_comm]

namespace Row.Names

variable {row : Row} {constraint : Constraint}

/-- The value has a column of its own. -/
theorem insert (h : row.Names columns metric field operator) (hd : columns.Distinct) (cell : Cell) :
    (row.insert columns.value cell).Names columns metric field operator := by
  obtain ⟨⟨-, hf, -⟩, ⟨ho, -⟩, hm⟩ := Columns.distinct_iff.mp hd
  rw [sameColumn_comm] at hf ho
  constructor
  · simp [get?_insert, hm, h.metric]
  · simp [get?_insert, hf, h.field]
  · simp [get?_insert, ho, h.operator]

theorem metricIs (h : row.Names columns metric field operator) : row.MetricIs columns metric :=
  ⟨_, h.metric, by simp [Cell.label]⟩

theorem fieldIs (h : row.Names columns metric field operator) (hne : Text.trim field ≠ "") :
    row.FieldIs columns (Text.trim field) :=
  ⟨hne, _, h.field, rfl⟩

theorem operatorIs (h : row.Names columns metric field operator) :
    row.OperatorIs columns operator :=
  ⟨_, h.operator, by simp [Cell.label]⟩

theorem toRule_eq (h : row.Names columns metric field operator) :
    row.toRule columns =
      if Text.trim field = "" then .error .emptyField
      else (⟨metric, Text.trim field, ·⟩) <$>
        Constraint.ofCell (row.get? columns.value) operator := by
  split
  · rename_i he
    exact (Checked.emptyField h.metricIs h.field he).toRule_eq
  · rename_i hne
    exact toRule_eq_map h.metricIs (h.fieldIs hne) h.operatorIs

theorem toRule (h : row.Names columns metric field operator) (hf : Text.IsTrimmed field)
    (hc : Constraint.ofCell (row.get? columns.value) operator = .ok constraint) :
    row.toRule columns = .ok ⟨metric, field, constraint⟩ := by
  rw [h.toRule_eq, hf.trim_eq, if_neg hf.ne_empty, hc]
  rfl

theorem toRule_insert (h : row.Names columns metric field operator) (hd : columns.Distinct)
    (hf : Text.IsTrimmed field) {cell : Cell}
    (hc : Constraint.ofCell (some cell) operator = .ok constraint) :
    (row.insert columns.value cell).toRule columns = .ok ⟨metric, field, constraint⟩ := by
  refine (h.insert hd cell).toRule hf ?_
  rw [get?_insert, if_pos (sameColumn_refl _), hc]

end Row.Names

namespace Rule

variable {rule : Rule}

theorem Writable.exists_row (h : rule.Writable) (hd : columns.Distinct) :
    ∃ row, RuleLine.read columns rule.metric rule.line = .ok [row] ∧
      row.toRule columns = .ok rule := by
  obtain ⟨metric, field, constraint⟩ := rule
  have hf : Text.IsTrimmed field := Quotable.isTrimmed h.field
  have hn := RuleLine.names_baseRow hd metric field
  rw [RuleLine.read, h.derives.scan_eq]
  cases constraint with
  | filter value =>
    obtain ⟨hv, hq⟩ := (h.values value List.mem_cons_self).eq_string
    refine ⟨_, rfl, (hn .filter).toRule_insert hd hf ?_⟩
    rw [Constraint.ofCell, Cell.singleValue_text .filter hq.isTrimmed, ← hv]
    rfl
  | exclude value =>
    obtain ⟨hv, hq⟩ := (h.values value List.mem_cons_self).eq_string
    refine ⟨_, rfl, (hn .exclude).toRule_insert hd hf ?_⟩
    rw [Constraint.ofCell, Cell.singleValue_text .exclude hq.isTrimmed, ← hv]
    rfl
  | unfilter => exact ⟨_, rfl, (hn .unfilter).toRule hf rfl⟩
  | contain values =>
    have hv : ∀ v ∈ values, Value.string v.unquoted = v := fun v hv =>
      (h.values v hv).eq_string.1.symm
    have hvalues : (values.map Value.unquoted).map Value.string = values := by
      rw [List.map_map]
      exact (List.map_congr_left hv).trans (List.map_id' values)
    have hlist := Cell.valueList_list .contain h.unquoted_ne_nil
      (List.forall_mem_map.mpr fun v hv => (h.values v hv).eq_string.2.isTrimmed)
    rw [hvalues] at hlist
    refine ⟨_, rfl, (hn .contain).toRule_insert hd hf ?_⟩
    exact congrArg (Constraint.contain <$> ·) hlist
  | present => exact ⟨_, rfl, (hn .present).toRule hf rfl⟩

def lines (rules : List Rule) : String :=
  "\n".intercalate (rules.map line)

end Rule

namespace LineRows

variable {rule : Rule} {rules : List Rule}

theorem ofLine_line (h : rule.Writable) (hd : columns.Distinct) (number : Nat) :
    ∃ row, ofLine columns rule.metric number rule.line = ⟨[⟨rule.metric, number, row⟩], []⟩ ∧
      row.toRule columns = .ok rule := by
  obtain ⟨row, hread, hrow⟩ := h.exists_row hd
  refine ⟨row, ?_, hrow⟩
  simp [ofLine, h.derives.isBlank_eq_false, hread]

theorem ofLines_line (hm : ∀ rule ∈ rules, rule.metric = metric)
    (hw : ∀ rule ∈ rules, rule.Writable) (hd : columns.Distinct) (number : Nat) :
    (ofLines columns metric number (rules.map Rule.line)).errors = [] ∧
      List.Forall₂ (fun row rule => row.toRule columns = .ok rule)
        (ofLines columns metric number (rules.map Rule.line)).toRows rules := by
  induction rules generalizing number with
  | nil => exact ⟨rfl, .nil⟩
  | cons rule rules ih =>
    obtain ⟨rfl, hms⟩ := List.forall_mem_cons.mp hm
    obtain ⟨hwr, hws⟩ := List.forall_mem_cons.mp hw
    obtain ⟨row, hline, hrow⟩ := ofLine_line hwr hd number
    obtain ⟨herrors, hrows⟩ := ih hms hws (number + 1)
    rw [List.map_cons, ofLines, hline]
    exact ⟨by simp [herrors], .cons hrow hrows⟩

/-- Rules of a metric that are written line by line are read back, in their order. -/
theorem validate_readText_lines (hd : columns.Distinct) (hm : ∀ rule ∈ rules, rule.metric = metric)
    (hw : ∀ rule ∈ rules, rule.Writable) :
    let lineRows := (readText columns metric (Rule.lines rules)).value
    let validation := (validate columns lineRows.toRows).value
    lineRows.errors = [] ∧ validation.errors = [] ∧
      ∀ m, validation.rules.rules m = if m = metric then rules else [] := by
  have htext : Text.lines (Rule.lines rules) = rules.map Rule.line :=
    Text.lines_intercalate (List.forall_mem_map.mpr fun rule hr => (hw rule hr).isLine)
  have hread : (readText columns metric (Rule.lines rules)).value =
      ofLines columns metric 1 (rules.map Rule.line) := by
    rw [← htext]
    rfl
  obtain ⟨herrors, hrows⟩ := ofLines_line hm hw hd 1
  intro lineRows validation
  have hrules : validation = ⟨.ofList rules, []⟩ := by
    rw [← Validation.validate_value hrows, ← hread]
  refine ⟨(congrArg errors hread).trans herrors, congrArg Validation.errors hrules, fun m => ?_⟩
  rw [hrules, RuleSet.rules_ofList]
  split
  · rename_i he
    exact List.filter_eq_self.mpr fun rule hr => decide_eq_true ((hm rule hr).trans he.symm)
  · rename_i hne
    exact List.filter_eq_nil_iff.mpr fun rule hr he =>
      hne ((of_decide_eq_true he).symm.trans (hm rule hr))

/-- A rule of each kind, with texts that hold what else has a meaning in a line. -/
def delicateRules : List Rule :=
  [⟨.denominator, "exists or \" = \\", .exclude (.string ".,\u201c")⟩,
    ⟨.denominator, "column", .contain [.string "a, \"b\"", .string "or", .string "\\\\\""]⟩,
    ⟨.denominator, "- 1)", .filter (.string "a\r\\")⟩,
    ⟨.denominator, "- 1)", .unfilter⟩,
    ⟨.denominator, "in", .present⟩]

theorem validate_readText_delicateRules :
    let lineRows := (readText {} .denominator (Rule.lines delicateRules)).value
    let validation := (validate {} lineRows.toRows).value
    Columns.Distinct {} ∧ (∀ rule ∈ delicateRules, rule.metric = .denominator) ∧
      (∀ rule ∈ delicateRules, rule.Writable) ∧
      lineRows.errors = [] ∧ validation.errors = [] ∧
      ∀ m, validation.rules.rules m = if m = .denominator then delicateRules else [] := by
  have hd : Columns.Distinct {} := by decide
  have hm : ∀ rule ∈ delicateRules, rule.metric = .denominator := by decide
  have hw : ∀ rule ∈ delicateRules, rule.Writable := by decide
  exact ⟨hd, hm, hw, validate_readText_lines hd hm hw⟩

end LineRows

end TallyRules
