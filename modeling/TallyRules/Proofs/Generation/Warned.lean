import TallyRules.Proofs.Generation.Policy

/-! # Warnings in the log

The warnings in a log tell all that went wrong on the way from a sheet to its
scripts, and nothing else: the lines that cannot be read, then the rejected
rows, and then, unless the sheet ended early, the metrics without rules. They
do not depend on whether the scripts could be written.
-/

namespace TallyRules

def Warning.event : Warning → Event
  | noRules metric => .noRules metric

namespace Logged

variable {α β : Type}

def warned (x : Logged α) : List Event :=
  x.events.filter (·.level = .warn)

@[simp]
theorem warned_pure (a : α) : (pure a : Logged α).warned = [] := rfl

@[simp]
theorem warned_bind (x : Logged α) (f : α → Logged β) :
    (x >>= f).warned = x.warned ++ (f x.value).warned :=
  List.filter_append _ _

@[simp]
theorem warned_log (event : Event) :
    (log event).warned = if event.level = .warn then [event] else [] := by
  simp [warned, List.filter_cons]

theorem warned_logAll_of_forall {events : List Event} (h : ∀ event ∈ events, event.level = .warn) :
    (logAll events).warned = events :=
  List.filter_eq_self.mpr fun event he => decide_eq_true (h event he)

theorem warned_logAll_of_trace {events : List Event}
    (h : ∀ event ∈ events, event.level = .trace) : (logAll events).warned = [] :=
  List.filter_eq_nil_iff.mpr fun event he => by simp [h event he]

end Logged

open Logged

section Resolution

variable {rules : List Rule}

theorem FieldTests.level_cancellations (tests : FieldTests) :
    ∀ event ∈ tests.cancellations rules, event.level = .trace := by
  induction rules generalizing tests with
  | nil => exact fun _ he => nomatch he
  | cons rule rules ih =>
    rw [cancellations, List.forall_mem_append]
    refine ⟨?_, ih _⟩
    split
    · exact List.forall_mem_singleton.mpr rfl
    · exact fun _ he => nomatch he

theorem Resolution.level_fieldEvents (field : String) :
    ∀ event ∈ fieldEvents field rules, event.level = .trace := by
  rw [fieldEvents, List.forall_mem_append]
  refine ⟨FieldTests.level_cancellations _, ?_⟩
  split
  · exact List.forall_mem_singleton.mpr rfl
  · exact fun _ he => nomatch he

theorem Resolution.level_events : ∀ event ∈ Resolution.events rules, event.level = .trace := by
  intro event he
  obtain ⟨group, -, he⟩ := List.mem_flatMap.mp he
  exact level_fieldEvents group.1 event he

end Resolution

namespace RuleSet

theorem warned_resolveMetric (set : RuleSet) (metric : Metric) :
    (set.resolveMetric metric).warned =
      if (set.rules metric).isEmpty then [.noRules metric] else [] := by
  have hevents : (logAll (Resolution.events (set.rules metric))).warned = [] :=
    warned_logAll_of_trace Resolution.level_events
  unfold resolveMetric
  dsimp only
  split <;> simp [hevents, Event.level]

theorem warned_resolve (set : RuleSet) : set.resolve.warned = set.warnings.map Warning.event := by
  simp only [resolve, warned_bind, warned_resolveMetric, warned_pure, List.append_nil, warnings,
    Metric.all, List.filter_cons, List.filter_nil]
  split <;> split <;> rfl

end RuleSet

section Scripts

theorem Condition.level_renderingEvents (access : Access) (a : Condition) :
    ∀ event ∈ a.renderingEvents access, event.level = .trace := by
  have hlast : ∀ {parts : List Event} (a : Condition) (script : String),
      (∀ event ∈ parts, event.level = .trace) →
      ∀ event ∈ parts ++ [.rendered a script], event.level = .trace := by
    intro parts a script hparts
    exact List.forall_mem_append.mpr ⟨hparts, List.forall_mem_singleton.mpr rfl⟩
  have hpair : ∀ {b c : Condition}, (∀ event ∈ b.renderingEvents access, event.level = .trace) →
      (∀ event ∈ c.renderingEvents access, event.level = .trace) →
      ∀ event ∈ b.renderingEvents access ++
        (if (b.toExpr access).isOk then c.renderingEvents access else []),
          event.level = .trace := by
    intro b c hb hc
    refine List.forall_mem_append.mpr ⟨hb, ?_⟩
    split
    · exact hc
    · exact fun _ he => nomatch he
  induction a with
  | always | test =>
    rw [renderingEvents]
    split
    · exact hlast _ _ fun _ he => nomatch he
    · exact fun _ he => nomatch he
  | and b c hb hc | or b c hb hc =>
    rw [renderingEvents]
    split
    · exact hlast _ _ (hpair hb hc)
    · exact hpair hb hc
  | not b hb =>
    rw [renderingEvents]
    split
    · exact hlast _ _ hb
    · exact hb

theorem Condition.warned_render (access : Access) (a : Condition) :
    (a.render access).warned = [] := by
  rw [render, warned_bind, warned_logAll_of_trace (a.level_renderingEvents access)]
  rfl

theorem ScriptConfig.warned_emit (config : ScriptConfig) (resolved : Resolved) :
    (config.emit resolved).warned = [] := by
  unfold emit
  split
  · rfl
  · rw [warned_bind, Condition.warned_render]
    split
    · rfl
    · rw [warned_bind, Condition.warned_render]
      split
      · rfl
      · simp [Event.level]

end Scripts

theorem warned_validate (columns : Columns) (rows : List Row) :
    (validate columns rows).warned = (validate columns rows).value.errors.map .rejectedRow := by
  rw [Validation.validate_errors]
  unfold validate
  rw [warned_bind, warned_logAll_of_forall, warned_bind]
  · simp [Event.level]
  · intro event he
    obtain ⟨error, -, rfl⟩ := List.mem_map.mp he
    rfl

namespace LineRows

theorem warned_readText (columns : Columns) (metric : Metric) (text : String) :
    (readText columns metric text).warned =
      (readText columns metric text).value.errors.map .unreadableLine := by
  unfold readText
  rw [warned_bind, warned_logAll_of_forall]
  · simp
  · intro event he
    obtain ⟨error, -, rfl⟩ := List.mem_map.mp he
    rfl

theorem warned_readRow (columns : Columns) (sheetRow : SheetRow) :
    (readRow columns sheetRow).warned =
      (readRow columns sheetRow).value.errors.map .unreadableLine := by
  unfold readRow
  split
  · exact warned_readText columns _ sheetRow.text
  · rfl

theorem warned_readSheet (columns : Columns) (sheet : List SheetRow) :
    (readSheet columns sheet).warned =
      (readSheet columns sheet).value.errors.map .unreadableLine := by
  induction sheet with
  | nil => rfl
  | cons sheetRow sheet ih =>
    simp only [readSheet, warned_bind, value_bind, warned_readRow, ih, warned_pure, value_pure,
      errors_append, List.map_append, List.append_nil]

end LineRows

def SheetLine.error? (columns : Columns) (line : SheetLine) : Option LineError :=
  match RuleLine.read columns line.metric line.text with
  | .ok _ => none
  | .error message => some ⟨line.metric, line.number, message⟩

theorem LineRows.errors_readSheet (columns : Columns) (sheet : List SheetRow) :
    (readSheet columns sheet).value.errors =
      (SheetLine.ofSheet sheet).filterMap (SheetLine.error? columns) := by
  rw [part_readSheet_ofSheet rfl errors_append, List.filterMap_eq_flatMap_toList]
  refine List.flatMap_congr fun line hl => ?_
  have hb := SheetLine.not_blank_of_mem hl
  cases hr : RuleLine.read columns line.metric line.text with
  | ok rows => rw [SheetLine.made_of_ok hb hr, SheetLine.error?, hr]; rfl
  | error message => rw [SheetLine.made_of_error hb hr, SheetLine.error?, hr]; rfl

/-- The errors are those of the rejected rows, in the order of the rows. -/
structure Validation.Rejects (columns : Columns) (rows : List Row) (errors : List RowError) :
    Prop where
  increasing : (errors.map RowError.row).Pairwise (· < ·)
  mem_iff : ∀ error, error ∈ errors ↔
    ∃ row ∈ rows[error.row]?, row.toRule columns = .error error.violation

theorem Validation.rejects_validate (columns : Columns) (rows : List Row) :
    Rejects columns rows (validate columns rows).value.errors :=
  ⟨pairwise_errorsFrom 0, fun _ => mem_errorsFrom_zero_iff⟩

/-- Whether a sheet ended with what was rejected of it. -/
def endsEarly : Except GenerationError Generation → Bool
  | .error (.rejectedRows _) => true
  | .error (.rejectedLines _) => true
  | .error (.script _) => false
  | .ok _ => false

namespace Config

variable {config : Config}

theorem warned_generate (config : Config) (rules : RuleSet) (rowErrors : List RowError)
    (lineErrors : List LineError) :
    (config.generate rules rowErrors lineErrors).warned = rules.warnings.map Warning.event := by
  unfold generate
  rw [warned_bind, RuleSet.warned_resolve, warned_bind, ScriptConfig.warned_emit]
  split <;> simp [Event.level]

theorem endsEarly_generate (rules : RuleSet) (rowErrors : List RowError)
    (lineErrors : List LineError) :
    endsEarly (config.generate rules rowErrors lineErrors).value = false := by
  unfold generate
  rw [value_bind, value_bind]
  split <;> rfl

/-- A sheet that does not end early is told of as its rules are. -/
theorem warned_generate_unless {c : Prop} [Decidable c] {error : GenerationError}
    (he : endsEarly (.error error) = true) (rules : RuleSet) (rowErrors : List RowError)
    (lineErrors : List LineError) :
    let result := if c then pure (.error error) else config.generate rules rowErrors lineErrors
    result.warned =
      if endsEarly result.value then [] else rules.resolve.value.warnings.map Warning.event := by
  intro result
  by_cases hc : c
  · simp [result, hc, he]
  · simp only [result, hc, if_false, warned_generate, endsEarly_generate]
    rfl

theorem warned_generateFromRows (rows : List Row) :
    let validation := (validate config.columns rows).value
    (config.generateFromRows rows).warned = validation.errors.map .rejectedRow ++
      if endsEarly (config.generateFromRows rows).value then []
      else validation.rules.resolve.value.warnings.map Warning.event := by
  intro validation
  rw [generateFromRows, warned_bind, value_bind, warned_validate]
  exact congrArg _ (warned_generate_unless rfl ..)

theorem warned_generateFromLines (sheet : List SheetRow) :
    let lineRows := (LineRows.readSheet config.columns sheet).value
    let validation := (validate config.columns lineRows.toRows).value
    (config.generateFromLines sheet).warned =
      lineRows.errors.map .unreadableLine ++ validation.errors.map .rejectedRow ++
        if endsEarly (config.generateFromLines sheet).value then []
        else validation.rules.resolve.value.warnings.map Warning.event := by
  intro lineRows validation
  rw [generateFromLines, warned_bind, value_bind, LineRows.warned_readSheet, warned_bind,
    value_bind, warned_validate, List.append_assoc]
  exact congrArg _ (congrArg _ (warned_generate_unless rfl ..))

theorem warnings_generate {rules : RuleSet} {rowErrors : List RowError}
    {lineErrors : List LineError} {generation : Generation}
    (h : (config.generate rules rowErrors lineErrors).value = .ok generation) :
    generation.warnings = rules.resolve.value.warnings := by
  unfold generate at h
  rw [value_bind, value_bind] at h
  split at h
  · cases h
  · cases h
    rfl

theorem generateFromRows_tells (config : Config) (rows : List Row) :
    let validation := (validate config.columns rows).value
    (∀ generation, (config.generateFromRows rows).value = .ok generation →
      generation.rowErrors = validation.errors ∧
        generation.warnings = validation.rules.resolve.value.warnings) ∧
      (endsEarly (config.generateFromRows rows).value = true →
        config.policy = .strict ∧
          (config.generateFromRows rows).value = .error (.rejectedRows validation.errors)) := by
  intro validation
  rw [generateFromRows_value]
  dsimp only
  split
  · rename_i hs
    exact ⟨nofun, fun _ => ⟨hs.1, rfl⟩⟩
  · refine ⟨fun generation hg => ⟨(generate_report hg).2.1, warnings_generate hg⟩, fun he => ?_⟩
    rw [endsEarly_generate] at he
    cases he

theorem generateFromLines_tells (config : Config) (sheet : List SheetRow) :
    let lineRows := (LineRows.readSheet config.columns sheet).value
    let validation := (validate config.columns lineRows.toRows).value
    (∀ generation, (config.generateFromLines sheet).value = .ok generation →
      generation.warnings = validation.rules.resolve.value.warnings) ∧
      (endsEarly (config.generateFromLines sheet).value = true → config.policy = .strict) := by
  intro lineRows validation
  rw [generateFromLines_value]
  dsimp only
  split
  · rename_i hs
    exact ⟨nofun, fun _ => hs.1⟩
  · refine ⟨fun generation hg => warnings_generate hg, fun he => ?_⟩
    rw [endsEarly_generate] at he
    cases he

/-- The warnings in the log of a sheet of rows are one for each rejected row, with its error as it
is collected, in the order of the rows, and then, unless the sheet ended early, one for each metric
without rules, which is returned if scripts come of the sheet. Those of a sheet of lines are the
same for the rows made of its lines, whether or not several of them share a report, after one for
each line that cannot be read. -/
theorem generation_warned (config : Config) (rows : List Row) (sheet : List SheetRow) :
    let ofRows := (validate config.columns rows).value
    let byRows := config.generateFromRows rows
    let lineRows := (LineRows.readSheet config.columns sheet).value
    let ofLines := (validate config.columns lineRows.toRows).value
    let byLines := config.generateFromLines sheet
    (byRows.warned = ofRows.errors.map .rejectedRow ++
        if endsEarly byRows.value then []
        else ofRows.rules.resolve.value.warnings.map Warning.event) ∧
      (byLines.warned = lineRows.errors.map .unreadableLine ++ ofLines.errors.map .rejectedRow ++
        if endsEarly byLines.value then []
        else ofLines.rules.resolve.value.warnings.map Warning.event) ∧
      Validation.Rejects config.columns rows ofRows.errors ∧
      Validation.Rejects config.columns lineRows.toRows ofLines.errors ∧
      lineRows.errors = (SheetLine.ofSheet sheet).filterMap (SheetLine.error? config.columns) ∧
      (∀ rules : RuleSet, rules.resolve.value.warnings =
        ([.numerator, .denominator].filter fun metric => (rules.rules metric).isEmpty).map
          .noRules) ∧
      (∀ generation, byRows.value = .ok generation →
        generation.rowErrors = ofRows.errors ∧
          generation.warnings = ofRows.rules.resolve.value.warnings) ∧
      (∀ generation, byLines.value = .ok generation →
        generation.warnings = ofLines.rules.resolve.value.warnings) ∧
      (endsEarly byRows.value = true →
        config.policy = .strict ∧ byRows.value = .error (.rejectedRows ofRows.errors)) ∧
      (endsEarly byLines.value = true → config.policy = .strict) := by
  intro ofRows byRows lineRows ofLines byLines
  obtain ⟨hrows, hearly⟩ := generateFromRows_tells config rows
  obtain ⟨hlines, hstrict⟩ := generateFromLines_tells config sheet
  exact ⟨warned_generateFromRows rows, warned_generateFromLines sheet,
    Validation.rejects_validate config.columns rows,
    Validation.rejects_validate config.columns lineRows.toRows,
    LineRows.errors_readSheet config.columns sheet, fun _ => rfl, hrows, hlines, hearly, hstrict⟩

/-- A line that cannot be read, and one of which two rows are rejected alike, for the only metric
that is named. -/
theorem generation_warned_merged :
    let sheet : List SheetRow := [⟨"Notes", "?"⟩, ⟨"Denominator",
      "Exclude column \"x\" exists\n\nExclude column \"x\" = \"\", \"y\", \"\""⟩]
    let lines := [
      "WARN unreadable denominator rule on line 1: Exclude cannot be combined with exists",
      "WARN rejected rule row 0: Exclude requires a value",
      "WARN rejected rule row 2: Exclude requires a value"]
    (generateFromLines {} sheet).warned.map Event.text =
        lines ++ ["WARN numerator has no rules; it will count every document"] ∧
      (generateFromLines { policy := .strict } sheet).warned.map Event.text = lines ∧
      ∃ generation, (generateFromLines {} sheet).value = .ok generation ∧
        generation.lineErrors.length = 2 ∧ generation.warnings = [.noRules .numerator] := by
  intro sheet lines
  obtain ⟨-, hcollect, -, -, -, -, -, hreturned, -⟩ := generation_warned {} [] sheet
  obtain ⟨-, hstrict, -⟩ := generation_warned { policy := .strict } [] sheet
  refine ⟨(congrArg _ hcollect).trans ?_, (congrArg _ hstrict).trans ?_, ?_⟩
  · decide +kernel
  · decide +kernel
  · cases hv : (generateFromLines {} sheet).value with
    | error error =>
      have hok : (generateFromLines {} sheet).value.isOk = true := by decide +kernel
      rw [hv] at hok
      cases hok
    | ok generation =>
      have herrors :
          (generateFromLines {} sheet).value.toOption.map (·.lineErrors.length) = some 2 := by
        decide +kernel
      rw [hv] at herrors
      refine ⟨generation, rfl, Option.some.inj herrors, (hreturned generation hv).trans ?_⟩
      decide +kernel

end Config

end TallyRules
