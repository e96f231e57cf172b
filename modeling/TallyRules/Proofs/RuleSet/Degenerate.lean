import TallyRules.Proofs.Generation.Outcome

/-! # Rules that prevent the scripts

A rule may be made without a field, or as a containment without values. It
prevents the scripts if it is in force in its metric: an unfilter never is, and
a filter is not if an unfilter on the same field, blank as it may be, comes
later. The first such rule is reported, in the order in which the tests of the
rules stand in the conditions.
-/

namespace TallyRules

namespace Rule

/-- The rule has no field, or no value that the field could contain. -/
def Degenerate (rule : Rule) : Prop :=
  Text.isBlank rule.field = true ∨ rule.constraint = .contain []

instance (rule : Rule) : Decidable rule.Degenerate :=
  inferInstanceAs (Decidable (_ ∨ _))

/-- How a degenerate rule is reported: an exclusion as the comparison that it negates. -/
def fault (rule : Rule) : ScriptError :=
  .malformedTest rule.field rule.leaf.operator
    (if Text.isBlank rule.field then "field name is empty"
      else "expected at least 1 value, got 0")

variable {rule : Rule}

theorem isBad_leaf_iff (h : rule.constraint ≠ .unfilter) : rule.leaf.IsBad ↔ rule.Degenerate := by
  unfold Test.IsBad Degenerate leaf
  cases hc : rule.constraint with
  | unfilter => exact absurd hc h
  | filter | exclude | contain | present => simp [Constraint.operator, Constraint.values]

theorem fault_leaf (h : rule.Degenerate) : rule.leaf.fault = rule.fault := by
  unfold fault Test.fault
  by_cases hb : Text.isBlank rule.field = true
  · have hl : Text.isBlank rule.leaf.field = true := hb
    rw [if_pos hb, if_pos hl]
    rfl
  · have hl : ¬ Text.isBlank rule.leaf.field = true := hb
    have hc : rule.constraint = .contain [] := h.resolve_left hb
    have hcount : Nat.repr 0 = "0" := by decide
    rw [if_neg hb, if_neg hl]
    simp [leaf, hc, Constraint.operator, Constraint.values, hcount]

end Rule

namespace Resolution

variable {rules : List Rule} {rule : Rule}

/-- The rules in force in the order of their tests: field by field, the active inclusions and then
the exclusions. -/
def inForce (rules : List Rule) : List Rule :=
  (mentioned rules).flatMap fun field =>
    onField field (activeInclusions rules) ++ onField field (exclusions rules)

theorem mem_inForce_iff :
    rule ∈ inForce rules ↔ ActiveInclusion rules rule ∨ rule ∈ rules ∧ rule.Excludes := by
  have ha : rule ∈ activeInclusions rules ↔ ActiveInclusion rules rule := mem_activeInclusions_iff
  simp only [inForce, List.mem_flatMap, List.mem_append, mem_onField_iff, ha, mem_exclusions_iff]
  constructor
  · rintro ⟨field, -, ⟨h, -⟩ | ⟨h, -⟩⟩
    · exact Or.inl h
    · exact Or.inr h
  · rintro (h | h)
    · exact ⟨rule.field, mem_mentioned_iff.mpr ⟨rule, h.mem, rfl⟩, Or.inl ⟨h, rfl⟩⟩
    · exact ⟨rule.field, mem_mentioned_iff.mpr ⟨rule, h.1, rfl⟩, Or.inr ⟨h, rfl⟩⟩

theorem ne_unfilter_of_mem_inForce (h : rule ∈ inForce rules) : rule.constraint ≠ .unfilter := by
  rcases mem_inForce_iff.mp h with ⟨_, _, _, hb⟩ | ⟨-, hx⟩
  · exact hb.ne_unfilter
  · exact hx.ne_unfilter

theorem tests_eq_map_inForce (rules : List Rule) :
    (Condition.ofRules rules).tests = (inForce rules).map Rule.leaf := by
  simp [Condition.tests_ofRules, inForce, List.map_flatMap]

end Resolution

namespace ScriptConfig

open Resolution

variable {config : ScriptConfig}

/-- Of the rules in force, those of the numerator first, the first that is degenerate is
reported. -/
theorem emit_resolve_eq_error_iff (hk : config.keys.Nodup) {set : RuleSet} {error : ScriptError} :
    (config.emit set.resolve.value).value = .error error ↔
      ∃ rule, (inForce (set.rules .numerator) ++ inForce (set.rules .denominator)).find?
        (·.Degenerate) = some rule ∧ error = rule.fault := by
  have htests : set.resolve.value.numerator.tests ++ set.resolve.value.denominator.tests =
      (inForce (set.rules .numerator) ++ inForce (set.rules .denominator)).map Rule.leaf := by
    have hn := set.condition_resolve .numerator
    have hd := set.condition_resolve .denominator
    dsimp only [Resolved.condition] at hn hd
    rw [hn, hd, tests_eq_map_inForce, tests_eq_map_inForce, List.map_append]
  have hunfilter : ∀ rule ∈ inForce (set.rules .numerator) ++ inForce (set.rules .denominator),
      rule.constraint ≠ .unfilter := by
    rintro rule hr
    rcases List.mem_append.mp hr with hr | hr <;> exact ne_unfilter_of_mem_inForce hr
  rw [emit_eq_error_iff_of_nodup hk, htests]
  generalize inForce (set.rules .numerator) ++ inForce (set.rules .denominator) = rules at *
  have hfind : (rules.map Rule.leaf).find? (·.IsBad) =
      (rules.find? (·.Degenerate)).map Rule.leaf := by
    rw [List.find?_map, ← List.head?_filter, ← List.head?_filter]
    refine congrArg (Option.map Rule.leaf ·.head?) (List.filter_congr fun rule hr => ?_)
    exact decide_eq_decide.mpr (Rule.isBad_leaf_iff (hunfilter rule hr))
  have hfault : ∀ rule, rules.find? (·.Degenerate) = some rule → rule.leaf.fault = rule.fault :=
    fun rule hr => Rule.fault_leaf (by simpa using List.find?_some hr)
  rw [hfind]
  constructor
  · rintro ⟨t, ht, rfl⟩
    obtain ⟨rule, hr, rfl⟩ := Option.map_eq_some_iff.mp ht
    exact ⟨rule, hr, hfault rule hr⟩
  · rintro ⟨rule, hr, rfl⟩
    exact ⟨rule.leaf, by rw [hr]; rfl, (hfault rule hr).symm⟩

theorem exists_emit_resolve_iff (hk : config.keys.Nodup) {set : RuleSet} :
    (∃ aggregation, (config.emit set.resolve.value).value = .ok aggregation) ↔
      ∀ metric, ∀ rule ∈ inForce (set.rules metric), ¬ rule.Degenerate := by
  simp only [exists_emit_iff, hk, true_and, RuleSet.condition_resolve, tests_eq_map_inForce,
    List.forall_mem_map]
  refine forall_congr' fun metric => forall₂_congr fun rule hr => not_congr ?_
  exact Rule.isBad_leaf_iff (ne_unfilter_of_mem_inForce hr)

/-- If the keys differ, scripts fail to come of a set of rules if and only if an active inclusion or
an exclusion of a metric is degenerate. Reported is the first such rule in the order of the tests in
the condition of the numerator, or else of the denominator. A degenerate rule is harmless if it is
an unfilter, or a filter before an unfilter on its field. -/
theorem emit_resolve_faults (config : ScriptConfig) (hk : config.keys.Nodup) (set : RuleSet) :
    ((∃ error, (config.emit set.resolve.value).value = .error error) ↔
      ∃ metric rule, (ActiveInclusion (set.rules metric) rule ∨
        rule ∈ set.rules metric ∧ rule.Excludes) ∧ rule.Degenerate) ∧
    (∀ metric, (set.resolve.value.condition metric).tests =
        (inForce (set.rules metric)).map Rule.leaf ∧
      ∀ rule, rule ∈ inForce (set.rules metric) ↔
        ActiveInclusion (set.rules metric) rule ∨ rule ∈ set.rules metric ∧ rule.Excludes) ∧
    (∀ error, (config.emit set.resolve.value).value = .error error ↔
      ∃ before rule after,
        inForce (set.rules .numerator) ++ inForce (set.rules .denominator) =
          before ++ rule :: after ∧
        (∀ earlier ∈ before, ¬ earlier.Degenerate) ∧ rule.Degenerate ∧
        error = .malformedTest rule.field rule.leaf.operator
          (if Text.isBlank rule.field then "field name is empty"
            else "expected at least 1 value, got 0")) ∧
    (∀ field operator, (config.emit set.resolve.value).value ≠
      .error (.unsupportedOperator field operator)) ∧
    ((∀ metric before rule later, set.rules metric = before ++ rule :: later → rule.Degenerate →
        rule.constraint = .unfilter ∨
          (∃ value, rule.constraint = .filter value) ∧ ∃ r ∈ later, r.Cancels rule) →
      ∃ aggregation, (config.emit set.resolve.value).value = .ok aggregation) := by
  have herror : ∀ error, (config.emit set.resolve.value).value = .error error ↔
      ∃ before rule after,
        inForce (set.rules .numerator) ++ inForce (set.rules .denominator) =
          before ++ rule :: after ∧
        (∀ earlier ∈ before, ¬ earlier.Degenerate) ∧ rule.Degenerate ∧ error = rule.fault := by
    intro error
    rw [emit_resolve_eq_error_iff hk, exists_find?_iff]
  refine ⟨?_, fun metric => ⟨?_, fun rule => mem_inForce_iff⟩, herror, ?_, fun hharmless => ?_⟩
  · rw [exists_error_iff, exists_emit_resolve_iff hk]
    simp only [mem_inForce_iff, not_forall, not_not, exists_prop]
  · rw [RuleSet.condition_resolve, tests_eq_map_inForce]
  · intro field operator he
    obtain ⟨_, rule, _, -, -, -, hfault⟩ := (herror _).mp he
    cases hfault
  · rw [exists_emit_resolve_iff hk]
    intro metric rule hr hd
    rcases mem_inForce_iff.mp hr with ⟨before, later, he, hb⟩ | ⟨hm, hx⟩
    · rcases hharmless metric before rule later he hd with hu | ⟨⟨value, hf⟩, r, hl, hc⟩
      · exact hb.ne_unfilter hu
      · rw [Rule.IncludesBefore, hf] at hb
        exact hb r hl hc
    · obtain ⟨before, later, he⟩ := List.append_of_mem hm
      rcases hharmless metric before rule later he hd with hu | ⟨⟨value, hf⟩, -⟩
      · exact hx.ne_unfilter hu
      · simp [Rule.Excludes, hf, Constraint.operator] at hx

/-- A filter on a blank field does no harm once it is cancelled, which takes an unfilter on the very
same field. Of two degenerate rules in force, the one on the field mentioned first is reported. -/
theorem emit_resolve_faults_second_of_denominator :
    let set : RuleSet :=
      { numerator := [⟨.numerator, " ", .filter (.string "x")⟩, ⟨.numerator, "", .unfilter⟩,
          ⟨.numerator, " ", .unfilter⟩]
        denominator := [⟨.denominator, "a", .exclude (.bool true)⟩,
          ⟨.denominator, "b", .contain []⟩, ⟨.denominator, "", .exclude (.int 1)⟩] }
    (ScriptConfig.emit {} set.resolve.value).value =
      .error (.malformedTest "b" .contain "expected at least 1 value, got 0") := by
  intro set
  refine ((emit_resolve_faults {} (by decide) set).2.2.1 _).mpr
    ⟨[⟨.denominator, "a", .exclude (.bool true)⟩], ⟨.denominator, "b", .contain []⟩,
      [⟨.denominator, "", .exclude (.int 1)⟩], ?_, ?_, ?_, ?_⟩
  · decide
  · decide
  · decide
  · decide

end ScriptConfig

end TallyRules
