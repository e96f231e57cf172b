import Mathlib.Data.List.Duplicate
import TallyRules.Generation
import TallyRules.Proofs.Resolution.Tests
import TallyRules.Proofs.Script.Faults
import TallyRules.Proofs.Validation.WellFormed

/-! # What comes of a sheet

All rules that are read from a sheet can be written. So if the policy is to
collect, scripts come of every sheet, of rows or of lines, unless the keys of
the results clash.
-/

namespace TallyRules

namespace ScriptConfig

variable {config : ScriptConfig}

theorem checkKeys_cases (config : ScriptConfig) :
    (config.keys.Nodup ∧ config.checkKeys = .ok ()) ∨
      ∃ key, List.Duplicate key config.keys ∧ config.checkKeys = .error (.duplicateKey key) := by
  cases hk : config.checkKeys with
  | ok => exact Or.inl ⟨checkKeys_eq_ok_iff.mp hk, rfl⟩
  | error error =>
    obtain ⟨before, key, after, he, -, hm, rfl⟩ := checkKeys_eq_error_iff.mp hk
    refine Or.inr ⟨key, ?_, rfl⟩
    rw [he, List.duplicate_iff_sublist]
    exact (List.singleton_sublist.mpr hm).append (List.singleton_sublist.mpr List.mem_cons_self)

theorem emit_cases (config : ScriptConfig) {resolved : Resolved}
    (hw : ∀ m, ∀ t ∈ (resolved.condition m).tests, t.WellFormed) :
    (config.keys.Nodup ∧ ∃ aggregation, (config.emit resolved).value = .ok aggregation) ∨
      ∃ key, List.Duplicate key config.keys ∧
        (config.emit resolved).value = .error (.duplicateKey key) := by
  rcases config.checkKeys_cases with ⟨hn, -⟩ | ⟨key, hd, hk⟩
  · exact Or.inl ⟨hn, exists_emit_iff.mpr
      ⟨hn, fun m t ht => Test.wellFormed_iff.mp (hw m t ht)⟩⟩
  · exact Or.inr ⟨key, hd, emit_eq_error_iff.mpr (Or.inl hk)⟩

end ScriptConfig

theorem RuleSet.condition_resolve (rules : RuleSet) (metric : Metric) :
    rules.resolve.value.condition metric = .ofRules (rules.rules metric) := by
  have hm : ∀ m, (rules.resolveMetric m).value = .ofRules (rules.rules m) := by
    intro m
    unfold resolveMetric
    dsimp only
    split <;> rfl
  cases metric
  · exact hm .numerator
  · exact hm .denominator

namespace Validation

theorem wellFormed_rules {columns : Columns} {rows : List Row} {metric : Metric} :
    ∀ rule ∈ (validate columns rows).value.rules.rules metric, rule.WellFormed := by
  intro rule hr
  have hv : (validate columns rows).value.rules = .ofList (rulesOf columns rows) := rfl
  rw [hv, RuleSet.rules_ofList, rulesOf] at hr
  obtain ⟨row, -, hrow⟩ := List.mem_filterMap.mp (List.mem_of_mem_filter hr)
  cases h : row.toRule columns with
  | error violation => simp [h, Except.toOption] at hrow
  | ok found =>
    obtain rfl : found = rule := by simpa [h, Except.toOption] using hrow
    exact Row.wellFormed_of_toRule h

end Validation

namespace Config

variable {config : Config}

theorem generate_cases {rules : RuleSet} (hw : ∀ m, ∀ rule ∈ rules.rules m, rule.WellFormed)
    (rowErrors : List RowError) (lineErrors : List LineError) :
    (config.script.keys.Nodup ∧ ∃ aggregation, (config.generate rules rowErrors lineErrors).value =
        .ok ⟨aggregation, rules, rowErrors, lineErrors, rules.warnings⟩) ∨
      ∃ key, List.Duplicate key config.script.keys ∧
        (config.generate rules rowErrors lineErrors).value =
          .error (.script (.duplicateKey key)) := by
  have ht : ∀ m, ∀ t ∈ (rules.resolve.value.condition m).tests, t.WellFormed := by
    intro m t ht
    rw [RuleSet.condition_resolve] at ht
    obtain ⟨rule, hr, hrule⟩ := Condition.exists_of_mem_tests ht
    exact (hw m rule hr).test hrule
  unfold generate
  rw [Logged.value_bind, Logged.value_bind]
  rcases config.script.emit_cases ht with ⟨hn, aggregation, he⟩ | ⟨key, hd, he⟩
  · rw [he]
    exact Or.inl ⟨hn, aggregation, rfl⟩
  · rw [he]
    exact Or.inr ⟨key, hd, rfl⟩

theorem generateFromRows_value (config : Config) (rows : List Row) :
    (config.generateFromRows rows).value =
      let validation := (validate config.columns rows).value
      if config.policy = .strict ∧ validation.errors ≠ [] then
        .error (.rejectedRows validation.errors)
      else (config.generate validation.rules validation.errors []).value := by
  unfold generateFromRows
  rw [Logged.value_bind]
  dsimp only
  split <;> rfl

theorem generateFromLines_value (config : Config) (sheet : List SheetRow) :
    (config.generateFromLines sheet).value =
      let lineRows := (LineRows.readSheet config.columns sheet).value
      let validation := (validate config.columns lineRows.toRows).value
      let rejected := lineRows.rejected validation.errors
      if config.policy = .strict ∧ rejected ≠ [] then .error (.rejectedLines rejected)
      else (config.generate validation.rules [] rejected).value := by
  unfold generateFromLines
  rw [Logged.value_bind, Logged.value_bind]
  dsimp only
  split <;> rfl

/-- A sheet ends early under a strict policy, or comes to its scripts, or the keys of the results
clash. -/
theorem generation_cases (config : Config) (rows : List Row) (sheet : List SheetRow) :
    ∀ result ∈ [(config.generateFromRows rows).value, (config.generateFromLines sheet).value],
      (config.policy = .strict ∧ ∀ error, result ≠ .error (.script error)) ∨
        (config.script.keys.Nodup ∧ ∃ generation, result = .ok generation) ∨
        ∃ key, List.Duplicate key config.script.keys ∧
          result = .error (.script (.duplicateKey key)) := by
  have hgenerate : ∀ rows rowErrors lineErrors result,
      (config.generate (validate config.columns rows).value.rules rowErrors lineErrors).value =
        result →
      (config.script.keys.Nodup ∧ ∃ generation, result = .ok generation) ∨
        ∃ key, List.Duplicate key config.script.keys ∧
          result = .error (.script (.duplicateKey key)) := by
    rintro rows rowErrors lineErrors _ rfl
    rcases config.generate_cases (fun _ => Validation.wellFormed_rules) rowErrors lineErrors with
      ⟨hn, aggregation, he⟩ | hd
    · exact Or.inl ⟨hn, _, he⟩
    · exact Or.inr hd
  intro result hr
  simp only [List.mem_cons, List.not_mem_nil, or_false] at hr
  rcases hr with rfl | rfl
  · rw [generateFromRows_value]
    dsimp only
    split
    · rename_i h
      exact Or.inl ⟨h.1, fun error he => by cases he⟩
    · exact Or.inr (hgenerate _ _ _ _ rfl)
  · rw [generateFromLines_value]
    dsimp only
    split
    · rename_i h
      exact Or.inl ⟨h.1, fun error he => by cases he⟩
    · exact Or.inr (hgenerate _ _ _ _ rfl)

/-- If rejected rules are collected, scripts come of every sheet if and only if the keys of the
results differ, and otherwise a repeated key is reported. No other error of a script is possible
under any policy. -/
theorem generation_outcome (config : Config) (rows : List Row) (sheet : List SheetRow) :
    ∀ result ∈ [(config.generateFromRows rows).value, (config.generateFromLines sheet).value],
      (config.policy = .collect →
        ((∃ generation, result = .ok generation) ↔ config.script.keys.Nodup) ∧
        (¬ config.script.keys.Nodup → ∃ key, List.Duplicate key config.script.keys ∧
          result = .error (.script (.duplicateKey key)))) ∧
      ∀ error, result = .error (.script error) →
        ∃ key, List.Duplicate key config.script.keys ∧ error = .duplicateKey key := by
  intro result hr
  rcases config.generation_cases rows sheet result hr with
    ⟨hs, hne⟩ | ⟨hn, generation, rfl⟩ | ⟨key, hd, rfl⟩
  · refine ⟨fun hp => ?_, fun error he => absurd he (hne error)⟩
    cases hp.symm.trans hs
  · exact ⟨fun _ => ⟨⟨fun _ => hn, fun _ => ⟨generation, rfl⟩⟩, fun h => absurd hn h⟩,
      fun error he => by cases he⟩
  · have hnot : ¬ config.script.keys.Nodup := fun hn =>
      List.nodup_iff_forall_not_duplicate.mp hn key hd
    refine ⟨fun _ => ⟨⟨?_, fun hn => absurd hn hnot⟩, fun _ => ⟨key, hd, rfl⟩⟩, ?_⟩
    · rintro ⟨generation, h⟩
      cases h
    · rintro error h
      cases h
      exact ⟨key, hd, rfl⟩

/-- Odd cells, twice in one column, do not prevent the scripts; a key that is used twice does. -/
theorem generation_outcome_odd_cells :
    let rows : List Row := [⟨[("Metric", .text " Numerator of "), ("Field", .bool true),
      (" FIELD ", .text ""), ("Operator", .list ["", "contains"]),
      ("Value", .text ", ,a,,")]⟩, ⟨[("Field", .number .nan)]⟩]
    let sheet : List SheetRow := [⟨"denominator", "Exclude column \" x \" = \"\", \"y\"\n?"⟩]
    let clashing : Config := { script := { ratioKey := some "numerator" } }
    (∃ generation, (Config.generateFromRows {} rows).value = .ok generation) ∧
      (∃ generation, (Config.generateFromLines {} sheet).value = .ok generation) ∧
      (clashing.generateFromRows rows).value = .error (.script (.duplicateKey "numerator")) := by
  intro rows sheet clashing
  have hn : (Config.script {}).keys.Nodup := by decide
  have hkeys : ¬ clashing.script.keys.Nodup := by decide
  have hone : ∀ key, List.Duplicate key clashing.script.keys → key = "numerator" := by
    intro key hd
    have hm : key ∈ ["numerator", "denominator", "numerator"] := hd.mem
    simp only [List.mem_cons, List.not_mem_nil, or_false] at hm
    rcases hm with rfl | rfl | rfl
    · rfl
    · exact absurd (List.duplicate_iff_two_le_count.mp hd) (by decide)
    · rfl
  have hplain := generation_outcome {} rows sheet
  refine ⟨?_, ?_, ?_⟩
  · exact ((hplain _ List.mem_cons_self).1 rfl).1.mpr hn
  · exact ((hplain _ (List.mem_cons_of_mem _ List.mem_cons_self)).1 rfl).1.mpr hn
  · have hclash := generation_outcome clashing rows sheet _ List.mem_cons_self
    obtain ⟨key, -, he⟩ := (hclash.1 rfl).2 hkeys
    obtain ⟨other, hd, hother⟩ := hclash.2 _ he
    rw [he, hother, hone other hd]

end Config

end TallyRules
