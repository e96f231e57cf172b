import TallyRules.Proofs.Generation.Outcome
import TallyRules.Proofs.Sheet.Lines

/-! # Rejected lines

Every line that cannot be read is reported. A line with rejected rows is
reported once for each reason, but lines with the same number, of sheet rows
for the same metric, share one report, also with a line that cannot be read.
-/

namespace TallyRules

variable {columns : Columns} {config : Config} {error : LineError}

namespace LineRows

/-- What is reported already is not reported again. -/
theorem count_foldl_report (located reported : List LineError) :
    (located.foldl (fun reported error =>
        if error ∈ reported then reported else reported ++ [error]) reported).count error =
      if error ∈ reported then reported.count error else if error ∈ located then 1 else 0 := by
  induction located generalizing reported with
  | nil =>
    rw [List.foldl_nil]
    split
    · rfl
    · rename_i h
      simp [List.count_eq_zero_of_not_mem h]
  | cons other located ih =>
    rw [List.foldl_cons, ih]
    by_cases hother : other ∈ reported
    · by_cases h : error ∈ reported
      · simp [hother, h]
      · have hne : error ≠ other := fun he => h (he ▸ hother)
        simp [hother, h, hne]
    · by_cases he : error = other
      · subst he
        simp [hother, List.count_eq_zero_of_not_mem hother]
      · simp [hother, he, List.count_append, Ne.symm he]

theorem count_rejected (lineRows : LineRows) :
    (lineRows.rejected (Validation.errorsFrom columns 0 lineRows.toRows)).count error =
      if error ∈ lineRows.errors then lineRows.errors.count error
      else if error ∈ lineRows.rejections columns then 1 else 0 := by
  have hlocated : (Validation.errorsFrom columns 0 lineRows.toRows).filterMap lineRows.locate =
      lineRows.rejections columns := by
    have hmap := congrArg (List.filterMap id) (lineRows.map_locate columns)
    simpa [List.filterMap_map] using hmap
  rw [rejected, count_foldl_report, hlocated]

theorem mem_rejected_iff (lineRows : LineRows) :
    error ∈ lineRows.rejected (Validation.errorsFrom columns 0 lineRows.toRows) ↔
      error ∈ lineRows.errors ∨ error ∈ lineRows.rejections columns := by
  rw [← List.count_pos_iff, count_rejected]
  by_cases he : error ∈ lineRows.errors
  · simp [he]
  · by_cases hr : error ∈ lineRows.rejections columns <;> simp [he, hr]

theorem rejected_eq_nil_iff (lineRows : LineRows) :
    lineRows.rejected (Validation.errorsFrom columns 0 lineRows.toRows) = [] ↔
      lineRows.errors = [] ∧ lineRows.rejections columns = [] := by
  simp only [List.eq_nil_iff_forall_not_mem, mem_rejected_iff, not_or, forall_and]

theorem count_rejected_readSheet (sheet : List SheetRow) :
    let lineRows := (readSheet columns sheet).value
    (lineRows.rejected (Validation.errorsFrom columns 0 lineRows.toRows)).count error =
      if ∃ sheetRow ∈ sheet, sheetRow.Unreadable columns error then
        sheet.countP (·.Unreadable columns error)
      else if ∃ sheetRow ∈ sheet, sheetRow.Rejected columns error then 1 else 0 := by
  have hmem : error ∈ (readSheet columns sheet).value.errors ↔
      ∃ sheetRow ∈ sheet, sheetRow.Unreadable columns error := by
    rw [mem_readSheet_iff rfl errors_append]
    simp only [mem_errors_readRow_iff]
  simp only [count_rejected, count_errors_readSheet, hmem, mem_rejections_readSheet_iff]

end LineRows

namespace Config

/-- How often a rejected line is reported: a line that cannot be read once for each sheet row with
such a line, and a line with rejected rows once for all sheet rows, unless such a line is reported
already. -/
theorem count_lineErrors (h : config.policy = .collect) (hk : config.script.keys.Nodup)
    (sheet : List SheetRow) :
    ∃ generation, (config.generateFromLines sheet).value = .ok generation ∧ ∀ error,
      generation.lineErrors.count error =
        if ∃ sheetRow ∈ sheet, sheetRow.Unreadable config.columns error then
          sheet.countP (·.Unreadable config.columns error)
        else if ∃ sheetRow ∈ sheet, sheetRow.Rejected config.columns error then 1 else 0 := by
  rw [generateFromLines_value]
  dsimp only
  rw [if_neg fun hs => absurd (h.symm.trans hs.1) (by decide)]
  rcases config.generate_cases (fun _ => Validation.wellFormed_rules) _ _ with
    ⟨-, aggregation, he⟩ | ⟨key, hd, -⟩
  · exact ⟨_, he, fun error => LineRows.count_rejected_readSheet sheet⟩
  · exact absurd hd (List.nodup_iff_forall_not_duplicate.mp hk key)

/-- Two sheet rows for one metric with the same two lines, of which the first cannot be read. -/
theorem count_lineErrors_twice :
    let text := "Exclude column \"Region\" exists\nExclude column \"Region\" = \"\", \"\""
    let sheet : List SheetRow := [⟨"Numerator", text⟩, ⟨"Numerator (continued)", text⟩]
    ∃ generation, (generateFromLines {} sheet).value = .ok generation ∧
      generation.lineErrors.count ⟨.numerator, 1, "Exclude cannot be combined with exists"⟩ = 2 ∧
      generation.lineErrors.count ⟨.numerator, 2, "Exclude requires a value"⟩ = 1 := by
  intro text sheet
  have hk : (Config.script {}).keys.Nodup := by decide
  obtain ⟨generation, hg, hc⟩ := count_lineErrors rfl hk sheet
  refine ⟨generation, hg, ?_, ?_⟩
  · rw [hc]
    decide +kernel
  · rw [hc]
    decide +kernel

/-- Lines of different columns that are rejected alike have one report, although they are in two
sheet rows. -/
theorem count_lineErrors_merged :
    let sheet : List SheetRow := [⟨"Numerator", "Filter column \"Region\" = \"\""⟩,
      ⟨"Numerator (continued)", "Filter column \"Status\" = \"\""⟩]
    let error : LineError := ⟨.numerator, 1, "Filter requires a value"⟩
    sheet.countP (fun sheetRow => sheetRow.Unreadable {} error ∨ sheetRow.Rejected {} error) = 2 ∧
      (generateFromLines {} sheet).value.toOption.map (·.lineErrors.count error) = some 1 := by
  decide +kernel

end Config

end TallyRules
