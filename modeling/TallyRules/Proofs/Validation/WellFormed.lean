import TallyRules.Proofs.Resolution.Meaning
import TallyRules.Proofs.Script.Rendering
import TallyRules.Proofs.Number.Numeral
import TallyRules.Proofs.Text.Blank
import TallyRules.Proofs.Validation.Checked

/-! # Rules that can be written

The rule in a row has a field that is not blank, and a containment has a value
to compare with: no label of a cell is blank but the empty one, and a row with
an empty one is rejected.
-/

namespace TallyRules

open Json.Numeral (isDigits_toDigits)

/-- A rule whose test has an expression. -/
structure Rule.WellFormed (rule : Rule) : Prop where
  field : Text.isBlank rule.field = false
  contains : rule.constraint ≠ .contain []

theorem isTrimmed_signed (negative : Bool) {cs : List Char} (hne : cs ≠ [])
    (h : ∀ c ∈ cs, Text.isBlankChar c = false) :
    Text.IsTrimmed (String.ofList ((if negative then ['-'] else []) ++ cs)) := by
  refine Text.isTrimmed_of_forall ?_ ?_
  · rw [String.toList_ofList]
    exact List.append_ne_nil_of_right_ne_nil _ hne
  · intro c hc
    rw [String.toList_ofList] at hc
    rcases List.mem_append.mp hc with hc | hc
    · cases negative with
      | false => cases hc
      | true =>
        rw [List.mem_singleton.mp hc]
        rfl
    · exact h c hc

theorem isTrimmed_toString_int (n : Int) : Text.IsTrimmed (toString n) := by
  have hchars : toString n =
      String.ofList ((if decide (n < 0) then ['-'] else []) ++ Nat.toDigits 10 n.natAbs) := by
    rw [← String.toList_inj, String.toList_ofList, Json.Numeral.toList_toString_int]
    simp [Json.Numeral.chars, Json.Numeral.fractionChars, Json.Numeral.powerChars]
  obtain ⟨hne, hdigits⟩ := isDigits_toDigits n.natAbs
  rw [hchars]
  exact isTrimmed_signed _ hne fun c hc => Text.isBlankChar_eq_false_of_isDigit (hdigits c hc)

theorem Decimal.mem_positionalChars {style : NumberStyle} {d : Decimal} {c : Char}
    (h : c ∈ d.positionalChars style) : c.isDigit = true ∨ c = '.' := by
  have hdigits := (isDigits_toDigits d.digits).2
  unfold positionalChars at h
  dsimp only at h
  split at h
  · simp only [List.mem_append, List.mem_replicate] at h
    rcases h with (h | ⟨-, rfl⟩) | h
    · exact .inl (hdigits c h)
    · exact .inl rfl
    · split at h
      · simp only [List.mem_cons, List.not_mem_nil, or_false] at h
        rcases h with rfl | rfl
        · exact .inr rfl
        · exact .inl rfl
      · cases h
  · have hpadded : ∀ k, ∀ c ∈ List.replicate k '0' ++ d.digitChars, c.isDigit = true := by
      intro k c hc
      rcases List.mem_append.mp hc with hc | hc
      · rw [List.eq_of_mem_replicate hc]
        rfl
      · exact hdigits c hc
    rcases List.mem_append.mp h with h | h
    · exact .inl (hpadded _ c (List.mem_of_mem_take h))
    · rcases List.mem_cons.mp h with rfl | h
      · exact .inr rfl
      · exact .inl (hpadded _ c (List.mem_of_mem_drop h))

theorem Decimal.positionalChars_ne_nil (style : NumberStyle) (d : Decimal) :
    d.positionalChars style ≠ [] := by
  unfold positionalChars
  dsimp only
  split
  · simp [digitChars, (isDigits_toDigits d.digits).1]
  · simp

theorem Binary64.isTrimmed_text (x : Binary64) : Text.IsTrimmed (x.text .message) := by
  cases x with
  | finite negative m p h =>
    refine isTrimmed_signed negative (Decimal.positionalChars_ne_nil _ _) fun c hc => ?_
    rcases Decimal.mem_positionalChars hc with hd | rfl
    · exact Text.isBlankChar_eq_false_of_isDigit hd
    · rfl
  | infinite negative => cases negative <;> exact ⟨by decide, by decide⟩
  | nan => exact ⟨by decide, by decide⟩

theorem Value.isTrimmed_text_ofNumber (x : Binary64) : Text.IsTrimmed (ofNumber x).text := by
  unfold ofNumber
  split
  · split
    · exact isTrimmed_toString_int _
    · exact x.isTrimmed_text
  · exact x.isTrimmed_text

theorem Cell.isTrimmed_label {cell : Cell} (h : cell.label ≠ "") : Text.IsTrimmed cell.label := by
  have htrim : ∀ s, Text.trim s ≠ "" → Text.IsTrimmed (Text.trim s) :=
    fun s hs => Text.isTrimmed_trim (Bool.eq_false_iff.mpr (mt Text.isBlank_iff.mp hs))
  cases cell with
  | bool b => cases b <;> exact ⟨by decide, by decide⟩
  | number x => exact Value.isTrimmed_text_ofNumber x
  | text s => exact htrim s h
  | list items => exact htrim _ h

theorem Row.FieldIs.isTrimmed {columns : Columns} {row : Row} {field : String}
    (h : row.FieldIs columns field) : Text.IsTrimmed field := by
  obtain ⟨hne, cell, -, rfl⟩ := h
  exact Cell.isTrimmed_label hne

theorem Constraint.Taken.ne_contain_nil {cell : Option Cell} {constraint : Constraint}
    (h : Taken cell constraint) : constraint ≠ .contain [] := by
  rintro rfl
  cases h with
  | contain _ _ hne => exact hne rfl

/-- The rule in a row can be written. -/
theorem Row.wellFormed_of_toRule {columns : Columns} {row : Row} {rule : Rule}
    (h : row.toRule columns = .ok rule) : rule.WellFormed := by
  obtain ⟨-, hf, -, ht⟩ := toRule_eq_ok_iff.mp h
  exact ⟨hf.isTrimmed.not_blank, ht.ne_contain_nil⟩

theorem Rule.WellFormed.test {rule : Rule} (h : rule.WellFormed) {t : Test}
    (ht : rule.test? = some t) : t.WellFormed := by
  have hf := Bool.not_eq_true _ ▸ h.field
  unfold test? at ht
  split at ht <;> cases ht
  · exact ⟨hf, rfl⟩
  · exact ⟨hf, rfl⟩
  · rename_i values hc
    exact ⟨hf, fun hv => h.contains (hv ▸ hc)⟩
  · exact ⟨hf, rfl⟩

end TallyRules
