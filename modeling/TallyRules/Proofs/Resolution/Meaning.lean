import TallyRules.Proofs.Condition.Truth
import TallyRules.Proofs.Resolution.Groups

/-! # The meaning of a list of rules

A document meets the condition of a list of rules if on every field that the
list mentions no exclusion matches, and an active inclusion matches unless
there is none.
-/

namespace TallyRules

variable {truth : Test → Bool}

def Rule.Matches (truth : Test → Bool) (rule : Rule) : Prop :=
  ∃ t, rule.test? = some t ∧ truth t = true

/-- A rule that stands in a list as an inclusion which the rules after it leave active. -/
def ActiveInclusion (rules : List Rule) (rule : Rule) : Prop :=
  ∃ before later, rules = before ++ rule :: later ∧ rule.IncludesBefore later

theorem ActiveInclusion.mem {rules : List Rule} {rule : Rule} (h : ActiveInclusion rules rule) :
    rule ∈ rules := by
  obtain ⟨before, later, rfl, _⟩ := h
  simp

namespace FieldTests

theorem condition?_eq_none_iff {tests : FieldTests} :
    tests.condition? = .none ↔ tests.includes = [] ∧ tests.excludes = [] := by
  have hi : tests.includes = [] ↔ Condition.any? (tests.includes.map .test) = .none := by simp
  have he : tests.excludes = [] ↔ Condition.any? (tests.excludes.map .test) = .none := by simp
  rw [hi, he]
  unfold condition?
  cases Condition.any? (tests.includes.map .test) <;>
    cases Condition.any? (tests.excludes.map .test) <;> simp

theorem condition?_cases {tests : FieldTests} {a : Condition} (h : tests.condition? = some a) :
    (∃ i e, Condition.any? (tests.includes.map .test) = some i ∧
      Condition.any? (tests.excludes.map .test) = some e ∧ a = .and i (.not e)) ∨
    (Condition.any? (tests.includes.map .test) = some a ∧ tests.excludes = []) ∨
    (∃ e, tests.includes = [] ∧
      Condition.any? (tests.excludes.map .test) = some e ∧ a = .not e) := by
  unfold condition? at h
  cases hi : Condition.any? (tests.includes.map .test) with
  | none =>
    cases he : Condition.any? (tests.excludes.map .test) with
    | none => simp [hi, he] at h
    | some e =>
      obtain rfl : Condition.not e = a := by simpa [hi, he] using h
      exact Or.inr (Or.inr ⟨e, by simpa using hi, rfl, rfl⟩)
  | some i =>
    cases he : Condition.any? (tests.excludes.map .test) with
    | none =>
      obtain rfl : i = a := by simpa [hi, he] using h
      exact Or.inr (Or.inl ⟨rfl, by simpa using he⟩)
    | some e =>
      obtain rfl : Condition.and i (.not e) = a := by simpa [hi, he] using h
      exact Or.inl ⟨i, e, rfl, rfl, rfl⟩

theorem ne_always_of_condition? {tests : FieldTests} {a : Condition}
    (h : tests.condition? = some a) : a ≠ .always := by
  rcases condition?_cases h with ⟨i, e, _, _, rfl⟩ | ⟨hi, _⟩ | ⟨e, _, _, rfl⟩
  · simp
  · exact Condition.ne_always_of_any? (by simp) hi
  · simp

/-- The condition of a field asks that no exclusion matches, and that an inclusion matches if
there is one. -/
theorem holds_of_condition? {tests : FieldTests} {a : Condition}
    (h : tests.condition? = some a) :
    a.holds truth = true ↔
      (∀ t ∈ tests.excludes, ¬ truth t = true) ∧
        (tests.includes = [] ∨ ∃ t ∈ tests.includes, truth t = true) := by
  have hany {ts : List Test} {b : Condition} (hb : Condition.any? (ts.map .test) = some b) :
      ts ≠ [] ∧ (b.holds truth = true ↔ ∃ t ∈ ts, truth t = true) := by
    constructor
    · rintro rfl
      simp [Condition.any?] at hb
    · rw [Condition.holds_of_any? hb]
      simp [Condition.holds]
  have hnot {ts : List Test} {b : Condition} (hb : Condition.any? (ts.map .test) = some b) :
      b.not.holds truth = true ↔ ∀ t ∈ ts, ¬ truth t = true := by
    rw [Condition.holds, Bool.not_eq_true', ← Bool.not_eq_true, (hany hb).2]
    simp only [not_exists, not_and]
  rcases condition?_cases h with ⟨i, e, hi, he, rfl⟩ | ⟨hi, he⟩ | ⟨e, hi, he, rfl⟩
  · rw [Condition.holds, Bool.and_eq_true, (hany hi).2, hnot he, and_comm]
    simp [(hany hi).1]
  · rw [(hany hi).2]
    simp [(hany hi).1, he]
  · rw [hnot he]
    simp [hi]

theorem forall_condition?_iff {tests : FieldTests} :
    (∀ a, tests.condition? = some a → a.holds truth = true) ↔
      (∀ t ∈ tests.excludes, ¬ truth t = true) ∧
        (tests.includes = [] ∨ ∃ t ∈ tests.includes, truth t = true) := by
  cases h : tests.condition? with
  | none =>
    obtain ⟨hi, he⟩ := condition?_eq_none_iff.mp h
    simp [hi, he]
  | some a =>
    rw [← holds_of_condition? h]
    simp

end FieldTests

namespace Resolution

theorem exists_includes_iff {field : String} {rules : List Rule} :
    (∃ t ∈ (testsOn field rules).includes, truth t = true) ↔
      ∃ rule, ActiveInclusion rules rule ∧ rule.field = field ∧ rule.Matches truth := by
  simp only [testsOn, List.mem_filterMap, mem_onField_iff, mem_activeInclusions_iff]
  constructor
  · rintro ⟨t, ⟨rule, ⟨h, hf⟩, ht⟩, hm⟩
    exact ⟨rule, h, hf, t, ht, hm⟩
  · rintro ⟨rule, h, hf, t, ht, hm⟩
    exact ⟨t, ⟨rule, ⟨h, hf⟩, ht⟩, hm⟩

theorem exists_excludes_iff {field : String} {rules : List Rule} :
    (∃ t ∈ (testsOn field rules).excludes, truth t = true) ↔
      ∃ rule ∈ rules, rule.field = field ∧ rule.Excludes ∧ rule.Matches truth := by
  simp only [testsOn, List.mem_filterMap, mem_onField_iff, mem_exclusions_iff]
  constructor
  · rintro ⟨t, ⟨rule, ⟨⟨h, he⟩, hf⟩, ht⟩, hm⟩
    exact ⟨rule, h, hf, he, t, ht, hm⟩
  · rintro ⟨rule, h, hf, he, t, ht, hm⟩
    exact ⟨t, ⟨rule, ⟨⟨h, he⟩, hf⟩, ht⟩, hm⟩

theorem includes_eq_nil_iff {field : String} {rules : List Rule} :
    (testsOn field rules).includes = [] ↔
      ∀ rule, ActiveInclusion rules rule → rule.field ≠ field := by
  simp only [testsOn, List.filterMap_eq_nil_iff, mem_onField_iff, mem_activeInclusions_iff]
  constructor
  · rintro h rule ⟨before, later, hr, hb⟩ hf
    have hn := h rule ⟨⟨before, later, hr, hb⟩, hf⟩
    unfold Rule.IncludesBefore at hb
    unfold Rule.test? at hn
    split at hb <;> simp_all
  · rintro h rule ⟨hr, hf⟩
    exact absurd hf (h rule hr)

theorem excludes_eq_nil_iff {field : String} {rules : List Rule} :
    (testsOn field rules).excludes = [] ↔ ∀ rule ∈ rules, rule.Excludes → rule.field ≠ field := by
  simp only [testsOn, List.filterMap_eq_nil_iff, mem_onField_iff, mem_exclusions_iff]
  constructor
  · rintro h rule hr he hf
    have hn := h rule ⟨⟨hr, he⟩, hf⟩
    unfold Rule.test? at hn
    cases hc : rule.constraint <;> simp_all [Rule.Excludes, Constraint.operator]
  · rintro h rule ⟨⟨hr, he⟩, hf⟩
    exact absurd hf (h rule hr he)

theorem forall_testsOn_iff {field : String} {rules : List Rule} :
    (∀ a, (testsOn field rules).condition? = some a → a.holds truth = true) ↔
      (∀ rule ∈ rules, rule.field = field → rule.Excludes → ¬ rule.Matches truth) ∧
        ((∀ rule, ActiveInclusion rules rule → rule.field ≠ field) ∨
          ∃ rule, ActiveInclusion rules rule ∧ rule.field = field ∧ rule.Matches truth) := by
  have hx : (∀ t ∈ (testsOn field rules).excludes, ¬ truth t = true) ↔
      ∀ rule ∈ rules, rule.field = field → rule.Excludes → ¬ rule.Matches truth := by
    rw [← not_iff_not]
    push Not
    exact exists_excludes_iff
  rw [FieldTests.forall_condition?_iff, hx, includes_eq_nil_iff, exists_includes_iff]

end Resolution

/-- A document meets the condition of some rules if on each field that they mention no exclusion
matches, and an active inclusion matches unless there is none. Only rules of which none is active
make up the condition that every document meets. -/
theorem Condition.holds_ofRules_iff (truth : Test → Bool) (rules : List Rule) :
    ((ofRules rules).holds truth = true ↔
      ∀ field ∈ rules.map Rule.field,
        (∀ rule ∈ rules, rule.field = field → rule.Excludes → ¬ rule.Matches truth) ∧
        ((∀ rule, ActiveInclusion rules rule → rule.field ≠ field) ∨
          ∃ rule, ActiveInclusion rules rule ∧ rule.field = field ∧ rule.Matches truth)) ∧
    (ofRules rules = .always ↔
      (∀ rule ∈ rules, ¬ rule.Excludes) ∧ ∀ rule, ¬ ActiveInclusion rules rule) ∧
    ofRules [] = .always := by
  refine ⟨?_, ?_, rfl⟩
  · rw [ofRules_eq, holds_all, List.all_filterMap, List.all_eq_true]
    simp only [Resolution.mem_mentioned_iff, List.mem_map]
    refine forall₂_congr fun field _ => ?_
    rw [← Resolution.forall_testsOn_iff]
    cases (Resolution.testsOn field rules).condition? <;> simp
  · rw [ofRules_eq, all_eq_always_iff]
    · simp only [List.filterMap_eq_nil_iff, Resolution.mem_mentioned_iff,
        FieldTests.condition?_eq_none_iff, Resolution.includes_eq_nil_iff,
        Resolution.excludes_eq_nil_iff]
      constructor
      · intro h
        refine ⟨fun rule hr he => ?_, fun rule ha => ?_⟩
        · exact (h rule.field ⟨rule, hr, rfl⟩).2 rule hr he rfl
        · exact (h rule.field ⟨rule, ha.mem, rfl⟩).1 rule ha rfl
      · rintro ⟨he, hi⟩ field _
        exact ⟨fun rule ha => absurd ha (hi rule), fun rule hr hx => absurd hx (he rule hr)⟩
    · intro a ha
      obtain ⟨field, _, hc⟩ := List.mem_filterMap.mp ha
      exact FieldTests.ne_always_of_condition? hc

end TallyRules
