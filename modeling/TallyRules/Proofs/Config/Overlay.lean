import TallyRules.Config.Json
import TallyRules.Proofs.Json.Kept

/-! # Settings of which some are given

A text may hold any of the keys of written settings in any order, and under the keys of a
part any of the keys inside it. The settings under these keys are read from it, and the
others are the default.
-/

namespace TallyRules

open Json (Keeps Sets sets_text)

def Columns.keep (kept : String → Bool) (columns : Columns) : Columns where
  field := if kept "field_column" then columns.field else ({} : Columns).field
  operator := if kept "operator_column" then columns.operator else ({} : Columns).operator
  value := if kept "value_column" then columns.value else ({} : Columns).value
  metric := if kept "metric_column" then columns.metric else ({} : Columns).metric

theorem Columns.ofReading_keeps {kept : List String → Bool} {columns : Columns} {part : Json}
    (h : Keeps 1 kept columns.toJson part) (room : Nat) :
    Columns.ofReading (room + 1) part.reading = .ok (columns.keep fun name => kept [name]) := by
  refine h.toRecord columns.keep "ColumnConfig" (by simp) ?_ ?_
  · intro given given' hgiven
    simp [keep, hgiven]
  · intro name value part hm hk
    obtain rfl := Json.keeps_zero_iff.1 hk
    simp only [List.mem_cons, Prod.mk.injEq, List.not_mem_nil, or_false] at hm
    rcases hm with ⟨rfl, rfl⟩ | ⟨rfl, rfl⟩ | ⟨rfl, rfl⟩ | ⟨rfl, rfl⟩
    all_goals exact sets_text rfl fun given => by simp [keep]

theorem Access.ofReading_toJson (access : Access) (room : Nat) :
    Access.ofReading room access.toJson.reading = .ok access := by
  cases access <;> rfl

theorem Policy.ofReading_toJson (policy : Policy) (room : Nat) :
    Policy.ofReading room policy.toJson.reading = .ok policy := by
  cases policy <;> rfl

theorem Measure.ofReading_toJson (measure : Measure) (room : Nat) :
    Measure.ofReading (room + 2) measure.toJson.reading = .ok measure := by
  cases measure <;> rfl

theorem toOptionalText_elim (key : Option String) :
    (key.elim Json.null Json.string).reading.toOptionalText = .ok key := by
  cases key <;> rfl

def ScriptConfig.keep (kept : String → Bool) (config : ScriptConfig) : ScriptConfig where
  access := if kept "field_access" then config.access else ({} : ScriptConfig).access
  numeratorKey :=
    if kept "numerator_key" then config.numeratorKey else ({} : ScriptConfig).numeratorKey
  denominatorKey :=
    if kept "denominator_key" then config.denominatorKey else ({} : ScriptConfig).denominatorKey
  numeratorMeasure :=
    if kept "numerator_measure" then config.numeratorMeasure
    else ({} : ScriptConfig).numeratorMeasure
  denominatorMeasure :=
    if kept "denominator_measure" then config.denominatorMeasure
    else ({} : ScriptConfig).denominatorMeasure
  ratioKey := if kept "ratio_key" then config.ratioKey else ({} : ScriptConfig).ratioKey

theorem ScriptConfig.ofReading_keeps {kept : List String → Bool} {config : ScriptConfig}
    {part : Json} (h : Keeps 1 kept config.toJson part) (room : Nat) :
    ScriptConfig.ofReading (room + 3) part.reading =
      .ok (config.keep fun name => kept [name]) := by
  refine h.toRecord config.keep "EmitterConfig" (by simp) ?_ ?_
  · intro given given' hgiven
    simp [keep, hgiven]
  · intro name value part hm hk
    obtain rfl := Json.keeps_zero_iff.1 hk
    simp only [List.mem_cons, Prod.mk.injEq, List.not_mem_nil, or_false] at hm
    rcases hm with ⟨rfl, rfl⟩ | ⟨rfl, rfl⟩ | ⟨rfl, rfl⟩ | ⟨rfl, rfl⟩ | ⟨rfl, rfl⟩ | ⟨rfl, rfl⟩
    · exact ⟨_, rfl, fun given => by simp [keep, Access.ofReading_toJson]⟩
    · exact sets_text rfl fun given => by simp [keep]
    · exact sets_text rfl fun given => by simp [keep]
    · exact ⟨_, rfl, fun given => by simp [keep, Measure.ofReading_toJson]⟩
    · exact ⟨_, rfl, fun given => by simp [keep, Measure.ofReading_toJson]⟩
    · exact ⟨_, rfl, fun given => by simp [keep, toOptionalText_elim]⟩

namespace Config

def keep (kept : String → Bool) (config : Config) : Config where
  columns := if kept "columns" then config.columns else ({} : Config).columns
  script := if kept "emitter" then config.script else ({} : Config).script
  policy := if kept "policy" then config.policy else ({} : Config).policy

/-- The settings whose paths are given, and the default of the others. -/
def keepPaths (kept : List String → Bool) (config : Config) : Config :=
  keep (fun name => kept [name])
    { config with
      columns := config.columns.keep fun name => kept ["columns", name]
      script := config.script.keep fun name => kept ["emitter", name] }

theorem ofReading_keeps {kept : List String → Bool} {config : Config} {part : Json}
    (h : Keeps 2 kept config.toJson part) (room : Nat) :
    ofReading (room + 4) part.reading = .ok (config.keepPaths kept) := by
  -- The paths inside the parts stay fixed while the members are read one by one.
  refine h.toRecord (fun given => keep given _) "PipelineConfig" (by simp) ?_ ?_
  · intro given given' hgiven
    simp [keep, hgiven]
  · intro name value part hm hk
    simp only [List.mem_cons, Prod.mk.injEq, List.not_mem_nil, or_false] at hm
    rcases hm with ⟨rfl, rfl⟩ | ⟨rfl, rfl⟩ | ⟨rfl, rfl⟩
    · have hcolumns := Columns.ofReading_keeps hk (room + 2)
      exact ⟨_, rfl, fun given => by simp [keep, hcolumns]⟩
    · have hscript := ScriptConfig.ofReading_keeps hk room
      exact ⟨_, rfl, fun given => by simp [keep, hscript]⟩
    · obtain rfl := hk.eq (by simp [Policy.toJson])
      exact ⟨_, rfl, fun given => by simp [keep, Policy.ofReading_toJson]⟩

theorem noNumber_toJson (config : Config) : config.toJson.NoNumber := by
  obtain ⟨_, ⟨_, _, _, numerator, denominator, ratio⟩, _⟩ := config
  cases numerator <;> cases denominator <;> cases ratio <;>
    simp [toJson, Columns.toJson, ScriptConfig.toJson, Access.toJson, Measure.toJson,
      Policy.toJson, Json.NoNumber, Json.NoNumberUnder]

/-- Whichever of the keys of written settings a text holds, and in whatever order, the settings
under these keys are read from it, and the others are the default. -/
theorem ofText_overlay (config : Config) :
    (∀ kept, ∃ part, Keeps 2 kept config.toJson part) ∧
    (∀ kept part, Keeps 2 kept config.toJson part →
      ofText part.text = .ok (config.keepPaths kept)) ∧
    ofText config.toJson.text = .ok config ∧ ofText (Json.object []).text = .ok {} := by
  have hread : ∀ kept part, Keeps 2 kept config.toJson part →
      ofText part.text = .ok (config.keepPaths kept) := by
    intro kept part h
    rw [ofText, Json.decode_text _ (h.noNumber config.noNumber_toJson)]
    exact ofReading_keeps h _
  refine ⟨?_, hread, ?_, ?_⟩
  · intro kept
    exact Json.exists_keeps 2 kept _
  · exact hread _ _ (Json.keeps_all 2 _)
  · exact hread _ _ (Json.keeps_none 1 _)

/-- The policy and two settings of a script are given, the later ones first. -/
theorem ofText_overlay_reordered :
    let script : ScriptConfig := ⟨.docValues, "e", "f", .sum "\"\\\n\x01", .sum "g", some "é😀"⟩
    let kept (path : List String) : Bool := path ∈ [["emitter"], ["policy"],
      ["emitter", "numerator_measure"], ["emitter", "ratio_key"], ["columns", "field_column"]]
    let part := Json.object [("policy", Policy.strict.toJson), ("emitter",
      .object [("ratio_key", .string "é😀"), ("numerator_measure", script.numeratorMeasure.toJson)])]
    Keeps 2 kept (toJson ⟨⟨"a", "b", "c", "d"⟩, script, .strict⟩) part ∧
      part.text = "\x7b\"policy\":\"strict\",\"emitter\":\x7b\"ratio_key\":\"é😀\"," ++
        "\"numerator_measure\":\x7b\"sum\":\x7b\"field\":\"\\\"\\\\\\n\\u0001\"\x7d\x7d\x7d\x7d" ∧
      ofText part.text = .ok ⟨{}, ⟨.source, "numerator", "denominator", .sum "\"\\\n\x01", .count,
        some "é😀"⟩, .strict⟩ := by
  intro script kept part
  have hscript : Keeps 1 (fun path => kept ("emitter" :: path)) script.toJson
      (.object [("ratio_key", .string "é😀"),
        ("numerator_measure", script.numeratorMeasure.toJson)]) := by
    refine ⟨_, rfl, by decide, List.forall_mem_cons.2 ⟨⟨.string "é😀", ?_, rfl⟩,
      List.forall_mem_singleton.2 ⟨script.numeratorMeasure.toJson, ?_, rfl⟩⟩⟩
    all_goals simp [script]
  have h : Keeps 2 kept (toJson ⟨⟨"a", "b", "c", "d"⟩, script, .strict⟩) part := by
    refine ⟨_, rfl, by decide, List.forall_mem_cons.2 ⟨⟨Policy.strict.toJson, ?_, rfl⟩,
      List.forall_mem_singleton.2 ⟨script.toJson, ?_, hscript⟩⟩⟩
    all_goals simp
  exact ⟨h, by decide, (ofText_overlay _).2.1 _ _ h⟩

end Config

end TallyRules
