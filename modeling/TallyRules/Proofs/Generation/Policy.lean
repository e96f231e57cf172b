import TallyRules.Proofs.Generation.Accepted
import TallyRules.Proofs.Sheet.Accounting
import TallyRules.Proofs.Sheet.Rejected

/-! # The strict policy

Under the strict policy a sheet of which something is rejected ends with the
errors that are collected otherwise, whatever else is wrong. The policy makes
no difference for the other sheets.
-/

namespace TallyRules

theorem Row.rejection?_eq_none_iff {columns : Columns} {row : Row} :
    row.rejection? columns = none ↔ row.isAccepted columns = true := by
  unfold rejection? isAccepted
  cases row.toRule columns <;> simp [Except.isOk, Except.toBool]

namespace SheetLine

variable {columns : Columns} {line : SheetLine}

/-- Whether the line cannot be read or a row of it is rejected. -/
def isRejected (columns : Columns) (line : SheetLine) : Bool :=
  match RuleLine.read columns line.metric line.text with
  | .ok rows => rows.any (!Row.isAccepted columns ·)
  | .error _ => true

theorem isRejected_eq_false_iff (hb : Text.isBlank line.text = false) :
    line.isRejected columns = false ↔
      (line.made columns).errors = [] ∧ (line.made columns).rejections columns = [] := by
  unfold isRejected
  cases hr : RuleLine.read columns line.metric line.text with
  | error message => simp [made_of_error hb hr]
  | ok rows =>
    simp [made_of_ok hb hr, LineRows.rejections, LineRows.rejection?, Row.rejection?_eq_none_iff]

end SheetLine

theorem Generation.isClean_iff {generation : Generation} :
    generation.isClean = true ↔ generation.rowErrors = [] ∧ generation.lineErrors = [] := by
  rw [isClean, Bool.and_eq_true, List.isEmpty_iff, List.isEmpty_iff]

namespace Config

variable {config : Config} {rows : List Row} {sheet : List SheetRow}

def rowErrors (config : Config) (rows : List Row) : List RowError :=
  (validate config.columns rows).value.errors

def lineErrors (config : Config) (sheet : List SheetRow) : List LineError :=
  let lineRows := (LineRows.readSheet config.columns sheet).value
  lineRows.rejected (validate config.columns lineRows.toRows).value.errors

theorem rowErrors_eq_nil_iff :
    config.rowErrors rows = [] ↔ ∀ row ∈ rows, row.isAccepted config.columns = true :=
  Validation.errorsFrom_eq_nil_iff 0

theorem lineErrors_eq_nil_iff : config.lineErrors sheet = [] ↔
    ∀ line ∈ SheetLine.ofSheet sheet, line.isRejected config.columns = false := by
  have herrors : (LineRows.readSheet config.columns sheet).value.errors =
      (SheetLine.ofSheet sheet).flatMap fun line => (line.made config.columns).errors :=
    LineRows.part_readSheet_ofSheet rfl LineRows.errors_append sheet
  have hrejections : (LineRows.readSheet config.columns sheet).value.rejections config.columns =
      (SheetLine.ofSheet sheet).flatMap fun line =>
        (line.made config.columns).rejections config.columns :=
    LineRows.part_readSheet_ofSheet rfl LineRows.rejections_append sheet
  rw [lineErrors, Validation.validate_errors, LineRows.rejected_eq_nil_iff, herrors, hrejections,
    List.flatMap_eq_nil_iff, List.flatMap_eq_nil_iff, ← forall₂_and]
  refine forall₂_congr fun line hl => ?_
  rw [SheetLine.isRejected_eq_false_iff (SheetLine.not_blank_of_mem hl)]

section Policies

variable (policy : Policy)

/-- The policy makes no difference for a sheet of accepted rows. -/
theorem generateFromRows_of_accepted (h : config.rowErrors rows = []) :
    ({ config with policy } : Config).generateFromRows rows = config.generateFromRows rows := by
  unfold generateFromRows
  refine Logged.bind_congr rfl ?_
  rw [rowErrors] at h
  simp only [h, ne_eq, not_true_eq_false, and_false, ↓reduceIte]
  rfl

theorem generateFromLines_of_accepted (h : config.lineErrors sheet = []) :
    ({ config with policy } : Config).generateFromLines sheet = config.generateFromLines sheet := by
  unfold generateFromLines
  refine Logged.bind_congr rfl (Logged.bind_congr rfl ?_)
  rw [lineErrors] at h
  simp only [h, ne_eq, not_true_eq_false, and_false, ↓reduceIte]
  rfl

end Policies

section Collect

variable (h : config.policy = .collect) {generation : Generation}

include h

theorem generateFromLines_of_collect (sheet : List SheetRow) :
    ∃ rules, (config.generateFromLines sheet).value =
      (config.generate rules [] (config.lineErrors sheet)).value := by
  rw [generateFromLines_value]
  exact ⟨_, if_neg fun hs => absurd (h.symm.trans hs.1) (by decide)⟩

theorem report_of_rows (hg : (config.generateFromRows rows).value = .ok generation) :
    generation.rules.size + (config.rowErrors rows).length = rows.length ∧
      generation.rowErrors = config.rowErrors rows ∧ generation.lineErrors = [] := by
  rw [generateFromRows_of_collect h] at hg
  obtain ⟨hrules, hreport⟩ := generate_report hg
  rw [hrules]
  exact ⟨Validation.size_rules_add config.columns rows, hreport⟩

theorem report_of_lines (hg : (config.generateFromLines sheet).value = .ok generation) :
    generation.rowErrors = [] ∧ generation.lineErrors = config.lineErrors sheet := by
  obtain ⟨rules, hv⟩ := generateFromLines_of_collect h sheet
  rw [hv] at hg
  exact (generate_report hg).2

end Collect

section Strict

variable (h : config.policy = .strict) {generation : Generation}

include h

theorem generateFromRows_of_rejected (hr : config.rowErrors rows ≠ []) :
    (config.generateFromRows rows).value = .error (.rejectedRows (config.rowErrors rows)) := by
  rw [generateFromRows_value]
  exact if_pos ⟨h, hr⟩

theorem generateFromLines_of_rejected (hr : config.lineErrors sheet ≠ []) :
    (config.generateFromLines sheet).value = .error (.rejectedLines (config.lineErrors sheet)) := by
  rw [generateFromLines_value]
  exact if_pos ⟨h, hr⟩

theorem isClean_of_rows (hg : (config.generateFromRows rows).value = .ok generation) :
    generation.isClean = true := by
  by_cases hr : config.rowErrors rows = []
  · rw [← generateFromRows_of_accepted .collect hr] at hg
    obtain ⟨-, hrows, hlines⟩ := report_of_rows rfl hg
    exact Generation.isClean_iff.mpr ⟨hrows.trans hr, hlines⟩
  · rw [generateFromRows_of_rejected h hr] at hg
    cases hg

theorem isClean_of_lines (hg : (config.generateFromLines sheet).value = .ok generation) :
    generation.isClean = true := by
  by_cases hr : config.lineErrors sheet = []
  · rw [← generateFromLines_of_accepted .collect hr] at hg
    obtain ⟨hrows, hlines⟩ := report_of_lines rfl hg
    exact Generation.isClean_iff.mpr ⟨hrows, hlines.trans hr⟩
  · rw [generateFromLines_of_rejected h hr] at hg
    cases hg

end Strict

/-- A sheet of which something is rejected ends under the strict policy with the errors that are
collected otherwise, even if the keys of the results clash. The policy makes no difference for the
other sheets. So scripts under the strict policy come without errors, and collected ones if and
only if there is a rule for each row. -/
theorem strict_iff_collect (config : Config) (rows : List Row) (sheet : List SheetRow) :
    let strict : Config := { config with policy := .strict }
    let collect : Config := { config with policy := .collect }
    ((∃ row ∈ rows, row.isAccepted config.columns = false) →
        (strict.generateFromRows rows).value = .error (.rejectedRows (config.rowErrors rows))) ∧
      ((∀ row ∈ rows, row.isAccepted config.columns = true) →
        strict.generateFromRows rows = collect.generateFromRows rows) ∧
      ((∃ line ∈ SheetLine.ofSheet sheet, line.isRejected config.columns = true) →
        (strict.generateFromLines sheet).value =
          .error (.rejectedLines (config.lineErrors sheet))) ∧
      ((∀ line ∈ SheetLine.ofSheet sheet, line.isRejected config.columns = false) →
        strict.generateFromLines sheet = collect.generateFromLines sheet) ∧
      (∀ generation, (collect.generateFromRows rows).value = .ok generation →
        generation.rowErrors = config.rowErrors rows ∧
          (generation.isClean = true ↔ generation.rules.size = rows.length)) ∧
      (∀ generation, (collect.generateFromLines sheet).value = .ok generation →
        generation.lineErrors = config.lineErrors sheet) ∧
      ∀ generation, (strict.generateFromRows rows).value = .ok generation ∨
          (strict.generateFromLines sheet).value = .ok generation →
        generation.isClean = true := by
  intro strict collect
  refine ⟨?_, fun ha => ?_, ?_, fun ha => ?_, fun generation hg => ?_,
    fun generation hg => (report_of_lines rfl hg).2, ?_⟩
  · rintro ⟨row, hr, ha⟩
    refine generateFromRows_of_rejected rfl fun he => ?_
    exact Bool.false_ne_true (ha.symm.trans (rowErrors_eq_nil_iff.mp he row hr))
  · have hr := rowErrors_eq_nil_iff.mpr ha
    rw [generateFromRows_of_accepted .strict hr, generateFromRows_of_accepted .collect hr]
  · rintro ⟨line, hl, ha⟩
    refine generateFromLines_of_rejected rfl fun he => ?_
    exact Bool.false_ne_true ((lineErrors_eq_nil_iff.mp he line hl).symm.trans ha)
  · have hr := lineErrors_eq_nil_iff.mpr ha
    rw [generateFromLines_of_accepted .strict hr, generateFromLines_of_accepted .collect hr]
  · obtain ⟨hsize, hrows, hlines⟩ := report_of_rows rfl hg
    refine ⟨hrows, ?_⟩
    rw [Generation.isClean_iff, hrows, hlines, ← hsize]
    simp
  · rintro generation (hg | hg)
    · exact isClean_of_rows rfl hg
    · exact isClean_of_lines rfl hg

/-- Rejected rows and lines hide that a key is used twice. Without them there are scripts. -/
theorem strict_iff_collect_clashing :
    let clashing : Config := { script := { ratioKey := some "numerator" } }
    let strict : Config := { policy := .strict }
    let row : Row := .ofCells [("Metric", .text "Denominator"), ("Field", .text "x"),
      ("Operator", .text "Exists")]
    let rejected : SheetRow := ⟨"Denominator", "\nExclude column \"x\" in \"\", \"y\", \"\""⟩
    let accepted : SheetRow := ⟨"Denominator", "\nExclude column \"x\" in \"y\""⟩
    ({ clashing with policy := .strict }.generateFromRows [row, .empty]).value =
        .error (.rejectedRows [⟨1, .missingColumn "Metric"⟩]) ∧
      ({ clashing with policy := .strict }.generateFromLines [rejected]).value =
        .error (.rejectedLines [⟨.denominator, 2, "Exclude requires a value"⟩]) ∧
      strict.generateFromLines [accepted] = generateFromLines {} [accepted] ∧
      ∃ generation, (strict.generateFromRows [row]).value = .ok generation ∧
        generation.isClean = true := by
  intro clashing strict row rejected accepted
  have hrows : ∃ r ∈ [row, .empty], r.isAccepted clashing.columns = false := by decide +kernel
  have hlines : ∃ line ∈ SheetLine.ofSheet [rejected],
      line.isRejected clashing.columns = true := by decide +kernel
  have haccepted : ∀ line ∈ SheetLine.ofSheet [accepted],
      line.isRejected strict.columns = false := by decide +kernel
  obtain ⟨hstrict, -, hstrictLines, -⟩ := strict_iff_collect clashing [row, .empty] [rejected]
  obtain ⟨-, -, -, hsame, -, -, hclean⟩ := strict_iff_collect strict [row] [accepted]
  obtain ⟨generation, hg⟩ :
      ∃ generation, (strict.generateFromRows [row]).value = .ok generation := by
    have hok : (strict.generateFromRows [row]).value.isOk = true := by decide +kernel
    cases hv : (strict.generateFromRows [row]).value with
    | ok generation => exact ⟨generation, rfl⟩
    | error error =>
      rw [hv] at hok
      cases hok
  refine ⟨(hstrict hrows).trans ?_, (hstrictLines hlines).trans ?_, hsame haccepted, generation, hg,
    hclean generation (.inl hg)⟩
  · have he : clashing.rowErrors [row, .empty] = [⟨1, .missingColumn "Metric"⟩] := by
      decide +kernel
    rw [he]
  · have he : clashing.lineErrors [rejected] =
        [⟨.denominator, 2, "Exclude requires a value"⟩] := by decide +kernel
    rw [he]

end Config

end TallyRules
