import TallyRules.Proofs.Row.Presentation
import TallyRules.Proofs.Validation.Checked

/-! # Rows that are read alike

A row is read the same however it is written: blanks around a text do not matter to a label, to a
value, or to the parts of a text between commas, and letter case does not matter to the label of a
metric or an operator. If the row is rejected, it is for the same reason; only the label that it is
rejected for may be spelt in another way.
-/

namespace TallyRules

namespace Text

variable {before after cs : List Char}

theorem comma_notMem_of_blank (h : ∀ c ∈ cs, isBlankChar c = true) : ',' ∉ cs :=
  fun hc => absurd (h _ hc) (by decide)

theorem splitOn_append_comma (cs rest : List Char) :
    (cs ++ ',' :: rest).splitOn ',' = cs.splitOn ',' ++ rest.splitOn ',' :=
  List.splitOnP_append_cons cs rest (by decide)

theorem map_trimChars_splitOn_append_left (hb : ∀ c ∈ before, isBlankChar c = true)
    (cs : List Char) :
    ((before ++ cs).splitOn ',').map trimChars = (cs.splitOn ',').map trimChars := by
  have htrim (first : List Char) : trimChars (before ++ first) = trimChars first := by
    simpa using @trimChars_pad first before [] hb (List.forall_mem_nil _)
  have hone {first : List Char} (hf : ',' ∉ first) :
      (before ++ first).splitOn ',' = [before ++ first] :=
    List.splitOn_eq_singleton (by simp [comma_notMem_of_blank hb, hf])
  by_cases hc : ',' ∈ cs
  · obtain ⟨first, rest, rfl, hf⟩ := List.eq_append_cons_of_mem hc
    rw [← List.append_assoc, splitOn_append_comma, splitOn_append_comma, hone hf,
      List.splitOn_eq_singleton hf]
    simp [htrim]
  · rw [hone hc, List.splitOn_eq_singleton hc]
    simp [htrim]

theorem map_trimChars_splitOn_append_right (ha : ∀ c ∈ after, isBlankChar c = true)
    (cs : List Char) :
    ((cs ++ after).splitOn ',').map trimChars = (cs.splitOn ',').map trimChars := by
  have htrim (last : List Char) : trimChars (last ++ after) = trimChars last := by
    simpa using @trimChars_pad last [] after (List.forall_mem_nil _) ha
  have hone {last : List Char} (hl : ',' ∉ last) :
      (last ++ after).splitOn ',' = [last ++ after] :=
    List.splitOn_eq_singleton (by simp [comma_notMem_of_blank ha, hl])
  by_cases hc : ',' ∈ cs
  · -- the comma after which there is no other
    obtain ⟨last, rest, hcs, hl⟩ := List.eq_append_cons_of_mem (List.mem_reverse.mpr hc)
    have hlast : ',' ∉ last.reverse := mt List.mem_reverse.mp hl
    obtain rfl : cs = rest.reverse ++ ',' :: last.reverse := by
      rw [← List.reverse_reverse cs, hcs]
      simp
    rw [List.append_assoc, List.cons_append, splitOn_append_comma, splitOn_append_comma,
      hone hlast, List.splitOn_eq_singleton hlast]
    simp [htrim]
  · rw [hone hc, List.splitOn_eq_singleton hc]
    simp [htrim]

end Text

theorem trim_splitAtCommas_trim (s : String) :
    (Cell.splitAtCommas (Text.trim s)).map Text.trim = (Cell.splitAtCommas s).map Text.trim := by
  obtain ⟨before, after, hs, hb, ha⟩ := Text.exists_pad_trimChars s.toList
  have hparts (t : String) : (Cell.splitAtCommas t).map Text.trim =
      ((t.toList.splitOn ',').map Text.trimChars).map String.ofList := by
    simp [Cell.splitAtCommas, Text.trim]
  rw [hparts, hparts, Text.trim, String.toList_ofList]
  conv_rhs => rw [hs]
  rw [Text.map_trimChars_splitOn_append_right ha, Text.map_trimChars_splitOn_append_left hb]

namespace Cell

variable {cell other : Cell} {items others : List String}

theorem nonBlankItems_congr (h : items.map Text.trim = others.map Text.trim) :
    nonBlankItems items = nonBlankItems others := by
  rw [nonBlankItems, h, nonBlankItems]

theorem label_trimmed (cell : Cell) : cell.trimmed.label = cell.label := by
  cases cell <;> simp [trimmed, label]

theorem entries_trimmed (cell : Cell) : cell.trimmed.entries = cell.entries := by
  cases cell with
  | text s => exact nonBlankItems_congr (by simp)
  | list items => rfl
  | number x => rfl
  | bool b => rfl

theorem values_trimmed (cell : Cell) : cell.trimmed.values = cell.values := by
  cases cell with
  | text s => exact nonBlankItems_congr (trim_splitAtCommas_trim s)
  | list items => rfl
  | number x => rfl
  | bool b => rfl

theorem columnKey_label_congr (h : other.folded = cell.folded) :
    columnKey other.label = columnKey cell.label := by
  cases cell <;> cases other <;> simp_all [folded, label, columnKey]

theorem singleValue_trimmed (operator : Operator) (cell : Option Cell) :
    singleValue operator (cell.map trimmed) = singleValue operator cell := by
  cases cell with
  | none => rfl
  | some cell => rw [Option.map_some, singleValue_some, singleValue_some, entries_trimmed]

theorem valueList_trimmed (operator : Operator) (cell : Option Cell) :
    valueList operator (cell.map trimmed) = valueList operator cell := by
  cases cell with
  | none => rfl
  | some cell => rw [Option.map_some, valueList, valueList, values_trimmed]

end Cell

theorem Metric.ofLabel?_congr {a b : String} (h : columnKey a = columnKey b) :
    ofLabel? a = ofLabel? b := by
  rw [columnKey, columnKey] at h
  rw [ofLabel?, ofLabel?, h]

theorem Operator.ofLabel?_congr {a b : String} (h : columnKey a = columnKey b) :
    ofLabel? a = ofLabel? b := by
  rw [columnKey, columnKey] at h
  rw [ofLabel?, ofLabel?, h]

theorem Constraint.ofCell_trimmed (cell : Option Cell) (operator : Operator) :
    ofCell (cell.map Cell.trimmed) operator = ofCell cell operator := by
  cases operator with
  | filter => rw [ofCell, ofCell, Cell.singleValue_trimmed]
  | exclude => rw [ofCell, ofCell, Cell.singleValue_trimmed]
  | contain => rw [ofCell, ofCell, Cell.valueList_trimmed]
  | unfilter => rfl
  | present => rfl

theorem Constraint.ofCell_congr {cell other : Option Cell}
    (h : other.map Cell.trimmed = cell.map Cell.trimmed) (operator : Operator) :
    ofCell other operator = ofCell cell operator := by
  rw [← ofCell_trimmed other, h, ofCell_trimmed]

/-- The violation without the label that was found. -/
def Violation.kind : Violation → Violation
  | unknownMetric _ => unknownMetric ""
  | unknownOperator _ => unknownOperator ""
  | violation => violation

section

variable {norm : Cell → Cell} {x y : Option Cell} {cell : Cell}

theorem eq_none_of_map_eq (h : y.map norm = x.map norm) (hx : x = none) : y = none := by
  rw [hx] at h
  exact Option.map_eq_none_iff.mp h

theorem exists_of_map_folded (h : y.map Cell.folded = x.map Cell.folded) (hx : x = some cell) :
    ∃ c, y = some c ∧ columnKey c.label = columnKey cell.label := by
  rw [hx] at h
  obtain ⟨c, hc, hn⟩ := Option.map_eq_some_iff.mp h
  exact ⟨c, hc, Cell.columnKey_label_congr hn⟩

theorem exists_of_map_trimmed (h : y.map Cell.trimmed = x.map Cell.trimmed) (hx : x = some cell) :
    ∃ c, y = some c ∧ c.label = cell.label := by
  rw [hx] at h
  obtain ⟨c, hc, hn⟩ := Option.map_eq_some_iff.mp h
  exact ⟨c, hc, by rw [← Cell.label_trimmed, hn, Cell.label_trimmed]⟩

end

namespace Row

variable {columns : Columns} {row other : Row} {metric : Metric} {field : String}
  {operator : Operator}

namespace Alike

theorem metricIs (h : Alike columns row other) (hm : row.MetricIs columns metric) :
    other.MetricIs columns metric := by
  obtain ⟨cell, hc, hl⟩ := hm
  obtain ⟨c, hf, hn⟩ := exists_of_map_folded h.metric hc
  exact ⟨c, hf, (Metric.ofLabel?_congr hn).trans hl⟩

theorem fieldIs (h : Alike columns row other) (hf : row.FieldIs columns field) :
    other.FieldIs columns field := by
  obtain ⟨hne, cell, hc, hl⟩ := hf
  obtain ⟨c, hc, hn⟩ := exists_of_map_trimmed h.field hc
  exact ⟨hne, c, hc, hn.trans hl⟩

theorem operatorIs (h : Alike columns row other) (ho : row.OperatorIs columns operator) :
    other.OperatorIs columns operator := by
  obtain ⟨cell, hc, hl⟩ := ho
  obtain ⟨c, hf, hn⟩ := exists_of_map_folded h.operator hc
  exact ⟨c, hf, (Operator.ofLabel?_congr hn).trans hl⟩

/-- Rows that are alike hold the same rule, or are rejected for the same reason. -/
theorem toRule_kind (h : Alike columns row other) :
    (other.toRule columns).mapError Violation.kind =
      (row.toRule columns).mapError Violation.kind := by
  -- each check of the other row ends as it does here
  have hc := checked_toRule columns row
  generalize row.toRule columns = result at hc ⊢
  cases hc with
  | noMetric hm => rw [(Checked.noMetric (eq_none_of_map_eq h.metric hm)).toRule_eq]
  | unknownMetric hm hl =>
    obtain ⟨c, hc, hn⟩ := exists_of_map_folded h.metric hm
    rw [(Checked.unknownMetric hc ((Metric.ofLabel?_congr hn).trans hl)).toRule_eq]
    rfl
  | noField hm hf =>
    rw [(Checked.noField (h.metricIs hm) (eq_none_of_map_eq h.field hf)).toRule_eq]
  | emptyField hm hf he =>
    obtain ⟨c, hc, hn⟩ := exists_of_map_trimmed h.field hf
    rw [(Checked.emptyField (h.metricIs hm) hc (hn.trans he)).toRule_eq]
  | noOperator hm hf ho =>
    rw [(Checked.noOperator (h.metricIs hm) (h.fieldIs hf)
      (eq_none_of_map_eq h.operator ho)).toRule_eq]
  | unknownOperator hm hf ho hl =>
    obtain ⟨c, hc, hn⟩ := exists_of_map_folded h.operator ho
    rw [(Checked.unknownOperator (h.metricIs hm) (h.fieldIs hf) hc
      ((Operator.ofLabel?_congr hn).trans hl)).toRule_eq]
    rfl
  | refused hm hf ho hr =>
    rw [toRule_eq_map (h.metricIs hm) (h.fieldIs hf) (h.operatorIs ho),
      Constraint.ofCell_congr h.value, Constraint.ofCell_eq_error_iff.mpr hr]
    rfl
  | accepted hm hf ho ht =>
    rw [toRule_eq_map (h.metricIs hm) (h.fieldIs hf) (h.operatorIs ho),
      Constraint.ofCell_congr h.value, Constraint.ofCell_eq_ok_iff.mpr ⟨rfl, ht⟩]
    rfl

end Alike

/-- However a row is written, the same rule is read from it, or it is rejected for the same
reason. -/
theorem toRule_restyled (hd : columns.Distinct) (hr : row.Distinct)
    (h : Restyled columns row other) :
    (∀ rule, row.toRule columns = .ok rule ↔ other.toRule columns = .ok rule) ∧
      ∀ violation another, row.toRule columns = .error violation →
        other.toRule columns = .error another → violation.kind = another.kind := by
  have hkind := (h.alike hd hr).toRule_kind
  constructor
  · intro rule
    rw [← mapError_eq_ok_iff, ← hkind, mapError_eq_ok_iff]
  · intro violation another hv ha
    rw [hv, ha] at hkind
    exact (Except.error.inj hkind).symm

theorem toRule_restyled_padded :
    let metric : String × Cell := ("Metric", .text "Numerator")
    let operator : String × Cell := ("OPERATOR", .text "conTAIN")
    let row : Row := ⟨[metric, ("Field", .text "region"), ("Operator", .text "Contain"),
      ("Value", .text "a,b")]⟩
    let other : Row := ⟨[("note", .bool true), ("Value", .text ("\t" ++ "a,b" ++ "\u2003")), metric,
      (" " ++ "Field" ++ "", .text "region"), operator]⟩
    let rule : Rule := ⟨.numerator, "region", .contain [.string "a", .string "b"]⟩
    Columns.Distinct {} ∧ row.Distinct ∧ Restyled {} row other ∧
      row.toRule {} = .ok rule ∧ other.toRule {} = .ok rule := by
  intro metric operator row other rule
  have hd : Columns.Distinct {} := by decide
  have hr : row.Distinct := by decide
  have hrule : row.toRule {} = .ok rule := by decide +kernel
  have hrestyled : Restyled {} row other := by
    let value : String × Cell := ("Value", .text "a,b")
    let field : String × Cell := ("Field", .text "region")
    apply Relation.ReflTransGen.head (b := ⟨[value, metric, field, ("Operator", .text "Contain")]⟩)
    · exact .permute (by decide)
    apply Relation.ReflTransGen.head
    · exact @Restyles.recaseName _ [value, metric, field] [] "Operator" "OPERATOR" _ (by decide)
    apply Relation.ReflTransGen.head
    · exact @Restyles.recaseText _ [value, metric, field] [] "OPERATOR" "Contain" "conTAIN"
        (.inr (by decide)) (by decide)
    apply Relation.ReflTransGen.head
    · exact @Restyles.padText _ [] [metric, field, operator] "Value" "a,b" "\t" "\u2003"
        (by decide) (by decide)
    apply Relation.ReflTransGen.head
    · exact @Restyles.padName _ [("Value", _), metric] [operator] "Field" " " "" _ (by decide)
        (by decide)
    · exact .single (@Restyles.add _ [] _ "note" (.bool true) (by decide))
  exact ⟨hd, hr, hrestyled, hrule, ((toRule_restyled hd hr hrestyled).1 rule).mp hrule⟩

end Row

end TallyRules
