import TallyRules.Proofs.List
import TallyRules.Proofs.Script.Result

/-! # Faults of conditions and scripts

A condition cannot be written if one of its tests has no meaning. The fault that
is reported is that of the first such test from the left, wherever it stands in
the condition and wherever fields are read. Scripts have no faults but those of
their conditions and a key of the results that is used twice, which is reported
first.
-/

namespace TallyRules

open Script (Expr)

namespace Test

/-- The test has no meaning: it lacks a field, its operator does not test anything, or it does not
have as many values as its operator takes. -/
def IsBad (t : Test) : Prop :=
  Text.isBlank t.field = true ∨ t.operator = .unfilter ∨
    (t.operator = .filter ∨ t.operator = .exclude) ∧ t.values.length ≠ 1 ∨
    t.operator = .contain ∧ t.values = [] ∨ t.operator = .present ∧ t.values ≠ []

instance (t : Test) : Decidable t.IsBad :=
  inferInstanceAs (Decidable (_ ∨ _ ∨ _ ∨ _ ∨ _))

theorem wellFormed_iff {t : Test} : t.WellFormed ↔ ¬ t.IsBad := by
  unfold WellFormed IsBad
  cases t.operator <;> simp

/-- What is wrong with a test that has no meaning. A blank field comes first, and then an operator
that does not test anything. -/
def fault (t : Test) : ScriptError :=
  if Text.isBlank t.field then .malformedTest t.field t.operator "field name is empty"
  else
    let malformed (expected : String) :=
      .malformedTest t.field t.operator
        ("expected " ++ expected ++ ", got " ++ toString t.values.length)
    match t.operator with
    | .filter => malformed "1 value"
    | .exclude => malformed "1 value"
    | .contain => malformed "at least 1 value"
    | .present => malformed "no values"
    | .unfilter => .unsupportedOperator t.field .unfilter

variable {access : Access} {t : Test} {error : ScriptError}

theorem toExpr_of_isBad (h : t.IsBad) : t.toExpr access = .error t.fault := by
  obtain ⟨field, operator, values⟩ := t
  unfold toExpr fault
  by_cases hb : Text.isBlank field = true
  · rw [if_pos hb, if_pos hb]
    rfl
  · rw [if_neg hb, if_neg hb]
    have hvalues := (or_iff_right hb).mp h
    cases operator with
    | unfilter => rfl
    | contain =>
      obtain rfl : values = [] := by simpa using hvalues
      have hreason : "expected at least 1 value, got 0" =
          "expected " ++ "at least 1 value" ++ ", got " ++ toString 0 := by decide
      exact congrArg (Except.error ∘ ScriptError.malformedTest field .contain) hreason
    | filter | exclude =>
      match values with
      | [] => rfl
      | [value] => simp at hvalues
      | first :: second :: rest => rfl
    | present =>
      match values with
      | [] => simp at hvalues
      | first :: rest => rfl

theorem toExpr_eq_error_iff : t.toExpr access = .error error ↔ t.IsBad ∧ error = t.fault := by
  by_cases h : t.IsBad
  · simp [toExpr_of_isBad h, h, eq_comm]
  · obtain ⟨e, he⟩ : ∃ e, t.toExpr access = .ok e := exists_toExpr_iff.mpr (wellFormed_iff.mpr h)
    simp [he, h]

end Test

namespace Condition

variable {access : Access} {a : Condition} {error : ScriptError}

theorem exists_toExpr_iff_not_isBad :
    (∃ e, a.toExpr access = .ok e) ↔ ∀ t ∈ a.tests, ¬ t.IsBad := by
  simp only [exists_toExpr_iff, Test.wellFormed_iff]

theorem exists_toExpr_iff_find? :
    (∃ e, a.toExpr access = .ok e) ↔ a.tests.find? (·.IsBad) = none := by
  simp only [exists_toExpr_iff_not_isBad, List.find?_eq_none, decide_eq_true_eq]

/-- A condition that cannot be written has the fault of its first test without a meaning. -/
theorem toExpr_eq_error_iff :
    a.toExpr access = .error error ↔
      ∃ t, a.tests.find? (·.IsBad) = some t ∧ error = t.fault := by
  induction a with
  | always => simp [toExpr, tests]
  | test t =>
    rw [toExpr, tests, Test.toExpr_eq_error_iff, List.find?_singleton]
    by_cases h : t.IsBad <;> simp [h]
  | and a b iha ihb | or a b iha ihb =>
    simp only [toExpr, bind_eq_error_iff, pure, Except.pure, reduceCtorEq, and_false, exists_false,
      or_false, exists_and_right]
    rw [iha, ihb, exists_toExpr_iff_find?, tests]
    simp only [List.find?_append, Option.or_eq_some_iff, or_and_right, exists_or, and_assoc,
      exists_and_left]
  | not a ih =>
    simp only [toExpr, bind_eq_error_iff, pure, Except.pure, reduceCtorEq, and_false, exists_false,
      or_false, tests, ih]

end Condition

namespace ScriptConfig

variable {config : ScriptConfig} {resolved : Resolved} {error : ScriptError}

theorem firstRepeated?_eq_some_iff {seen keys : List String} {key : String} :
    firstRepeated? seen keys = some key ↔ ∃ before after, keys = before ++ key :: after ∧
      before.Nodup ∧ (∀ k ∈ before, k ∉ seen) ∧ (key ∈ seen ∨ key ∈ before) := by
  induction keys generalizing seen with
  | nil => simp [firstRepeated?]
  | cons first keys ih =>
    rw [firstRepeated?]
    by_cases hs : first ∈ seen
    · rw [if_pos hs]
      constructor
      · rintro ⟨⟩
        exact ⟨[], keys, rfl, .nil, by simp, .inl hs⟩
      · rintro ⟨before, after, he, -, hb, -⟩
        cases before with
        | nil => exact congrArg some (List.cons.inj he).1
        | cons k before =>
          obtain ⟨rfl, -⟩ := List.cons.inj he
          exact absurd hs (hb first List.mem_cons_self)
    · rw [if_neg hs, ih]
      constructor
      · rintro ⟨before, after, rfl, hn, hb, hk⟩
        refine ⟨first :: before, after, rfl, List.nodup_cons.mpr ⟨fun hm => ?_, hn⟩, ?_, ?_⟩
        · exact hb first hm (by simp)
        · exact List.forall_mem_cons.mpr
            ⟨hs, fun k hk hm => hb k hk (List.mem_append_left [first] hm)⟩
        · simpa [or_assoc] using hk
      · rintro ⟨before, after, he, hn, hb, hk⟩
        cases before with
        | nil =>
          obtain ⟨rfl, -⟩ := List.cons.inj he
          simp [hs] at hk
        | cons k before =>
          obtain ⟨rfl, rfl⟩ := List.cons.inj he
          obtain ⟨hf, hn⟩ := List.nodup_cons.mp hn
          refine ⟨before, after, rfl, hn, fun k hk hm => ?_, by simpa [or_assoc] using hk⟩
          rcases List.mem_append.mp hm with hm | hm
          · exact hb k (List.mem_cons_of_mem first hk) hm
          · exact hf (List.mem_singleton.mp hm ▸ hk)

theorem checkKeys_eq_ok_iff : config.checkKeys = .ok () ↔ config.keys.Nodup := by
  constructor
  · exact nodup_keys_of_checkKeys
  · intro h
    rw [checkKeys, firstRepeated?_eq_none_iff.mpr ⟨h, by simp⟩]

theorem checkKeys_eq_error_iff : config.checkKeys = .error error ↔
    ∃ before key after, config.keys = before ++ key :: after ∧ before.Nodup ∧ key ∈ before ∧
      error = .duplicateKey key := by
  have hkey : config.checkKeys = .error error ↔
      ∃ key, firstRepeated? [] config.keys = some key ∧ error = .duplicateKey key := by
    unfold checkKeys
    cases firstRepeated? [] config.keys <;> simp [eq_comm]
  simp only [hkey, firstRepeated?_eq_some_iff]
  constructor
  · rintro ⟨key, ⟨before, after, hk, hn, -, hs | hm⟩, rfl⟩
    · cases hs
    · exact ⟨before, key, after, hk, hn, hm, rfl⟩
  · rintro ⟨before, key, after, hk, hn, hm, rfl⟩
    exact ⟨key, ⟨before, after, hk, hn, by simp, .inr hm⟩, rfl⟩

/-- Clashing keys are reported before anything else, and the numerator before the denominator. -/
theorem emit_eq_error_iff : (config.emit resolved).value = .error error ↔
    config.checkKeys = .error error ∨ config.keys.Nodup ∧
      (resolved.numerator.toExpr config.access = .error error ∨
        (∃ e, resolved.numerator.toExpr config.access = .ok e) ∧
          resolved.denominator.toExpr config.access = .error error) := by
  have hmap : (config.emit resolved).value = .error error ↔
      config.phases? resolved.numerator resolved.denominator = .error error := by
    rw [emit_value]
    cases config.phases? resolved.numerator resolved.denominator <;> simp [Except.map]
  have hkeys : (∃ u, config.checkKeys = .ok u) ↔ config.keys.Nodup := by
    rw [← checkKeys_eq_ok_iff]
    exact ⟨fun ⟨(), h⟩ => h, fun h => ⟨(), h⟩⟩
  rw [hmap]
  simp only [phases?, bind_eq_error_iff, pure, Except.pure, reduceCtorEq, and_false, exists_false,
    or_false, exists_and_right, hkeys]

theorem emit_eq_error_iff_of_nodup (hk : config.keys.Nodup) :
    (config.emit resolved).value = .error error ↔
      ∃ t, (resolved.numerator.tests ++ resolved.denominator.tests).find? (·.IsBad) = some t ∧
        error = t.fault := by
  rw [emit_eq_error_iff, checkKeys_eq_ok_iff.mpr hk, Condition.toExpr_eq_error_iff,
    Condition.toExpr_eq_error_iff, Condition.exists_toExpr_iff_find?]
  simp only [reduceCtorEq, false_or, hk, true_and, List.find?_append, Option.or_eq_some_iff,
    or_and_right, exists_or, and_assoc, exists_and_left]

theorem exists_emit_iff : (∃ aggregation, (config.emit resolved).value = .ok aggregation) ↔
    config.keys.Nodup ∧ ∀ metric, ∀ t ∈ (resolved.condition metric).tests, ¬ t.IsBad := by
  simp only [emit_eq_ok_iff, checkKeys_eq_ok_iff]
  constructor
  · rintro ⟨_, hk, x, y, hx, hy, -⟩
    refine ⟨hk, fun metric => ?_⟩
    cases metric
    · exact Condition.exists_toExpr_iff_not_isBad.mp ⟨x, hx⟩
    · exact Condition.exists_toExpr_iff_not_isBad.mp ⟨y, hy⟩
  · rintro ⟨hk, ht⟩
    obtain ⟨x, hx⟩ := Condition.exists_toExpr_iff_not_isBad.mpr (ht .numerator)
    obtain ⟨y, hy⟩ := Condition.exists_toExpr_iff_not_isBad.mpr (ht .denominator)
    exact ⟨_, hk, x, y, hx, hy, rfl⟩

/-- A condition can be written if each of its tests has a meaning, and otherwise the fault of the
first test without one is reported. Scripts cannot be written if two keys of the results are equal,
of which the first to repeat an earlier one is reported whatever the conditions are, or else if a
condition cannot be written, that of the numerator first. It makes no difference where the fields
are read. -/
theorem emit_faults (config : ScriptConfig) (resolved : Resolved) :
    (∀ (access : Access) (a : Condition),
      ((∃ e, (a.render access).value = .ok e) ↔ ∀ t ∈ a.tests, ¬ t.IsBad) ∧
      ∀ error, (a.render access).value = .error error ↔
        ∃ before t after, a.tests = before ++ t :: after ∧ (∀ s ∈ before, ¬ s.IsBad) ∧
          t.IsBad ∧ error = t.fault) ∧
    ((∃ error, (config.emit resolved).value = .error error) ↔
      ¬ config.keys.Nodup ∨
        ∃ metric error, ((resolved.condition metric).render config.access).value = .error error) ∧
    (∀ error, (config.emit resolved).value = .error error ↔
      (∃ before key after, config.keys = before ++ key :: after ∧ before.Nodup ∧ key ∈ before ∧
        error = .duplicateKey key) ∨
      config.keys.Nodup ∧ ((resolved.numerator.render config.access).value = .error error ∨
        (∃ e, (resolved.numerator.render config.access).value = .ok e) ∧
          (resolved.denominator.render config.access).value = .error error)) ∧
    ∀ access, (∃ aggregation, ({ config with access }.emit resolved).value = .ok aggregation) ↔
      ∃ aggregation, (config.emit resolved).value = .ok aggregation := by
  simp only [Condition.value_render]
  refine ⟨fun access a => ⟨?_, fun error => ?_⟩, ?_, fun error => ?_, fun access => ?_⟩
  · exact Condition.exists_toExpr_iff_not_isBad
  · rw [Condition.toExpr_eq_error_iff, exists_find?_iff]
  · rw [exists_error_iff, exists_emit_iff, not_and_or]
    simp only [exists_error_iff, Condition.exists_toExpr_iff_not_isBad, not_forall]
  · rw [emit_eq_error_iff, checkKeys_eq_error_iff]
  · rw [exists_emit_iff, exists_emit_iff]
    exact Iff.rfl

/-- Of several faults of a test the blank field is reported, and of several tests the first. -/
example :
    let a : Condition := .or (.test (.present "a"))
      (.not (.and (.test ⟨" ", .unfilter, [.bool true]⟩) (.test (.oneOf "b" []))))
    (a.render .docValues).value = .error (.malformedTest " " .unfilter "field name is empty") := by
  rfl

end ScriptConfig

end TallyRules
