import TallyRules.Proofs.Generation.Outcome
import TallyRules.Proofs.Validation.Batch

/-! # Rejected rows among the others

A sheet of rows gives the scripts of its accepted rows. If rejected rules are
collected, a sheet without its rejected rows gives the same scripts, and so
does any sheet with the same accepted rows of each metric in the same order.
-/

namespace TallyRules

def Generation.withoutErrors (generation : Generation) : Generation :=
  { generation with rowErrors := [], lineErrors := [] }

namespace Config

variable {config : Config}

/-- The rejected rules are reported, and have no other effect. -/
theorem generate_map_withoutErrors (config : Config) (rules : RuleSet) (rowErrors : List RowError)
    (lineErrors : List LineError) :
    (config.generate rules rowErrors lineErrors).value.map Generation.withoutErrors =
      (config.generate rules [] []).value := by
  unfold generate
  rw [Logged.value_bind, Logged.value_bind, Logged.value_bind, Logged.value_bind]
  cases (config.script.emit rules.resolve.value).value <;> rfl

theorem generate_report {rules : RuleSet} {rowErrors : List RowError}
    {lineErrors : List LineError} {generation : Generation}
    (h : (config.generate rules rowErrors lineErrors).value = .ok generation) :
    generation.rules = rules ∧ generation.rowErrors = rowErrors ∧
      generation.lineErrors = lineErrors := by
  unfold generate at h
  rw [Logged.value_bind, Logged.value_bind] at h
  cases he : (config.script.emit rules.resolve.value).value with
  | error error => simp [he] at h
  | ok aggregation =>
    rw [he] at h
    cases h
    exact ⟨rfl, rfl, rfl⟩

theorem generateFromRows_of_collect (h : config.policy = .collect) (rows : List Row) :
    (config.generateFromRows rows).value =
      (config.generate (validate config.columns rows).value.rules
        (validate config.columns rows).value.errors []).value := by
  rw [generateFromRows_value]
  exact if_neg fun hs => absurd (h.symm.trans hs.1) (by decide)

/-- Every row becomes one rule or one error. If rejected rules are collected, the scripts, the
rules and the warnings are those of the sheet without its rejected rows, and of any sheet that has
the same accepted rows of each metric in the same order, whatever the order of the metrics and of
the rejected rows. -/
theorem generateFromRows_accounts (config : Config) (rows : List Row) :
    let validation := (validate config.columns rows).value
    (validation.errors.map RowError.row).Pairwise (· < ·) ∧
      (∀ error, error ∈ validation.errors ↔
        ∃ row ∈ rows[error.row]?, row.toRule config.columns = .error error.violation) ∧
      (∀ metric, List.Forall₂ (fun row rule => row.toRule config.columns = .ok rule)
        (rows.filter (Row.isRuleOf config.columns metric)) (validation.rules.rules metric)) ∧
      validation.rules.size + validation.errors.length = rows.length ∧
      (config.policy = .collect →
        (config.generateFromRows (rows.filter (Row.isAccepted config.columns))).value =
            (config.generateFromRows rows).value.map Generation.withoutErrors ∧
          ∀ others : List Row,
            (∀ metric, others.filter (Row.isRuleOf config.columns metric) =
              rows.filter (Row.isRuleOf config.columns metric)) →
            (config.generateFromRows others).value.map Generation.withoutErrors =
              (config.generateFromRows rows).value.map Generation.withoutErrors) := by
  intro validation
  refine ⟨Validation.pairwise_errorsFrom 0, fun error => Validation.mem_errorsFrom_zero_iff,
    Validation.forall₂_rules config.columns rows, Validation.size_rules_add config.columns rows,
    fun h => ⟨?_, fun others ho => ?_⟩⟩
  · have hrules :
        (validate config.columns (rows.filter (Row.isAccepted config.columns))).value.rules =
          validation.rules := by
      refine Validation.rules_congr fun metric => ?_
      rw [List.filter_filter]
      refine List.filter_congr fun row _ => ?_
      rw [Bool.and_eq_left_iff_imp]
      exact Row.isAccepted_of_isRuleOf
    have herrors :
        (validate config.columns (rows.filter (Row.isAccepted config.columns))).value.errors = [] :=
      (Validation.errorsFrom_eq_nil_iff 0).mpr fun row hr => List.of_mem_filter hr
    rw [generateFromRows_of_collect h, generateFromRows_of_collect h, generate_map_withoutErrors,
      hrules, herrors]
  · rw [generateFromRows_of_collect h, generateFromRows_of_collect h, generate_map_withoutErrors,
      generate_map_withoutErrors, Validation.rules_congr ho]

/-- Two rejected rows, and the accepted rows in an order that differs between the metrics only. -/
theorem generateFromRows_accounts_interleaved :
    let row (metric field operator value : String) : Row := .ofCells [("Metric", .text metric),
      ("Field", .text field), ("Operator", .text operator), ("Value", .text value)]
    let rows := [row "Numerator" "type" "Filter" "A", row "Ratio" "type" "Filter" "A",
      row "Denominator" "type" "Exclude" "B", row "Numerator" "type" "Unfilter" "",
      row "Numerator" " " "Filter" "A"]
    let others := [row "Numerator" " " "Filter" "A", row "Denominator" "type" "Exclude" "B",
      row "Numerator" "type" "Filter" "A", row "Numerator" "type" "Unfilter" "",
      row "Ratio" "type" "Filter" "A"]
    (⟨1, .unknownMetric "Ratio"⟩ : RowError) ∈ (validate {} rows).value.errors ∧
      (∀ metric, others.filter (Row.isRuleOf {} metric) = rows.filter (Row.isRuleOf {} metric)) ∧
      (generateFromRows {} (rows.filter (Row.isAccepted {}))).value =
        (generateFromRows {} rows).value.map Generation.withoutErrors ∧
      (generateFromRows {} others).value.map Generation.withoutErrors =
        (generateFromRows {} rows).value.map Generation.withoutErrors := by
  intro row rows others
  obtain ⟨-, herrors, -, -, hcollect⟩ := generateFromRows_accounts {} rows
  obtain ⟨hdeleted, hothers⟩ := hcollect rfl
  have hm : ∀ metric, others.filter (Row.isRuleOf {} metric) =
      rows.filter (Row.isRuleOf {} metric) := by
    intro metric
    cases metric <;> decide +kernel
  refine ⟨(herrors ⟨1, .unknownMetric "Ratio"⟩).mpr ⟨_, rfl, ?_⟩, hm, hdeleted, hothers others hm⟩
  decide +kernel

end Config

end TallyRules
