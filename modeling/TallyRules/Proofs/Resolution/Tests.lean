import Mathlib.Data.List.Basic
import TallyRules.Proofs.Resolution.Meaning

/-! # The tests of a resolved condition

The tests in the condition of some rules are those of the active inclusions and
the exclusions, one for each, field by field. Those of exclusions stand under
one negation, and no others under any.
-/

namespace TallyRules

namespace Rule

/-- The test of a rule, in which an exclusion is a comparison like a filter. -/
def leaf (rule : Rule) : Test :=
  ⟨rule.field,
    if rule.constraint.operator = .exclude then .filter else rule.constraint.operator,
    rule.constraint.values⟩

theorem test?_eq_some_leaf {rule : Rule} (h : rule.constraint ≠ .unfilter) :
    rule.test? = some rule.leaf := by
  unfold test? leaf
  cases hc : rule.constraint with
  | unfilter => exact absurd hc h
  | filter | exclude | contain | present =>
    simp [Constraint.operator, Constraint.values, Test.equals, Test.oneOf, Test.present]

theorem operator_leaf {rule : Rule} (h : rule.constraint ≠ .unfilter) :
    rule.leaf.operator ≠ .unfilter ∧ rule.leaf.operator ≠ .exclude := by
  unfold leaf
  cases hc : rule.constraint with
  | unfilter => exact absurd hc h
  | filter | exclude | contain | present => simp [Constraint.operator]

theorem IncludesBefore.ne_unfilter {rule : Rule} {later : List Rule}
    (h : rule.IncludesBefore later) : rule.constraint ≠ .unfilter := by
  intro hu
  simp [IncludesBefore, hu] at h

theorem Excludes.ne_unfilter {rule : Rule} (h : rule.Excludes) : rule.constraint ≠ .unfilter := by
  intro hu
  simp [Excludes, hu, Constraint.operator] at h

end Rule

namespace Condition

/-- The tests of a condition from left to right, each with the number of negations above it. -/
def leaves : Condition → List (Test × Nat)
  | always => []
  | test t => [(t, 0)]
  | and a b => a.leaves ++ b.leaves
  | or a b => a.leaves ++ b.leaves
  | not a => a.leaves.map fun (t, n) => (t, n + 1)

theorem tests_eq (a : Condition) : a.tests = a.leaves.map Prod.fst := by
  induction a with
  | always => rfl
  | test t => rfl
  | and a b iha ihb => rw [tests, leaves, List.map_append, iha, ihb]
  | or a b iha ihb => rw [tests, leaves, List.map_append, iha, ihb]
  | not a ih => simp [tests, leaves, ih, Function.comp_def]

/-- The condition that every document meets is a part of it. -/
def HasAlways : Condition → Prop
  | always => True
  | test _ => False
  | and a b => a.HasAlways ∨ b.HasAlways
  | or a b => a.HasAlways ∨ b.HasAlways
  | not a => a.HasAlways

section Fold

/-! Disjunctions and conjunctions of several parts are both grouped from the left. -/

variable {op : Condition → Condition → Condition}

theorem leaves_foldl (hop : ∀ a b, (op a b).leaves = a.leaves ++ b.leaves) (a : Condition)
    (rest : List Condition) : (rest.foldl op a).leaves = a.leaves ++ rest.flatMap leaves := by
  induction rest generalizing a with
  | nil => simp
  | cons b rest ih => rw [List.foldl_cons, ih, hop, List.flatMap_cons, List.append_assoc]

theorem hasAlways_foldl (hop : ∀ a b, (op a b).HasAlways ↔ a.HasAlways ∨ b.HasAlways)
    (a : Condition) (rest : List Condition) :
    (rest.foldl op a).HasAlways ↔ ∃ b ∈ a :: rest, b.HasAlways := by
  induction rest generalizing a with
  | nil => simp
  | cons b rest ih => simp [ih, hop, or_assoc]

end Fold

theorem leaves_all (parts : List Condition) : (all parts).leaves = parts.flatMap leaves := by
  cases parts with
  | nil => rfl
  | cons a rest => rw [all, leaves_foldl fun _ _ => rfl, List.flatMap_cons]

theorem hasAlways_all_iff {parts : List Condition} (hp : ∀ a ∈ parts, ¬ a.HasAlways) :
    (all parts).HasAlways ↔ parts = [] := by
  cases parts with
  | nil => simp [all, HasAlways]
  | cons a rest =>
    rw [all, hasAlways_foldl fun _ _ => Iff.rfl]
    simpa using hp

theorem leaves_of_any? {tests : List Test} {a : Condition} (h : any? (tests.map .test) = some a) :
    a.leaves = tests.map (·, 0) := by
  cases tests with
  | nil => cases h
  | cons t rest =>
    cases h
    rw [leaves_foldl fun _ _ => rfl, List.flatMap_map, List.map_eq_flatMap]
    simp [leaves]

theorem not_hasAlways_of_any? {tests : List Test} {a : Condition}
    (h : any? (tests.map .test) = some a) : ¬ a.HasAlways := by
  cases tests with
  | nil => cases h
  | cons t rest =>
    cases h
    rw [hasAlways_foldl fun _ _ => Iff.rfl]
    simp [HasAlways]

end Condition

namespace FieldTests

variable {tests : FieldTests} {a : Condition}

theorem leaves_of_condition? (h : tests.condition? = some a) :
    a.leaves = tests.includes.map (·, 0) ++ tests.excludes.map (·, 1) := by
  rcases condition?_cases h with ⟨i, e, hi, he, rfl⟩ | ⟨hi, he⟩ | ⟨e, hi, he, rfl⟩
  · simp [Condition.leaves, Condition.leaves_of_any? hi, Condition.leaves_of_any? he]
  · simp [Condition.leaves_of_any? hi, he]
  · simp [Condition.leaves, Condition.leaves_of_any? he, hi]

theorem not_hasAlways_of_condition? (h : tests.condition? = some a) : ¬ a.HasAlways := by
  rcases condition?_cases h with ⟨i, e, hi, he, rfl⟩ | ⟨hi, -⟩ | ⟨e, -, he, rfl⟩
  · rintro (h | h)
    · exact Condition.not_hasAlways_of_any? hi h
    · exact Condition.not_hasAlways_of_any? he h
  · exact Condition.not_hasAlways_of_any? hi
  · change ¬ e.HasAlways
    exact Condition.not_hasAlways_of_any? he

end FieldTests

namespace Resolution

variable {rules : List Rule} {rule : Rule}

theorem mem_of_mem_activeInclusions (h : rule ∈ activeInclusions rules) :
    rule ∈ rules ∧ rule.constraint ≠ .unfilter := by
  obtain ⟨before, later, rfl, hb⟩ := mem_activeInclusions_iff.mp h
  exact ⟨List.mem_append_right before List.mem_cons_self, hb.ne_unfilter⟩

theorem mem_of_mem_exclusions (h : rule ∈ exclusions rules) :
    rule ∈ rules ∧ rule.constraint ≠ .unfilter := by
  obtain ⟨hr, he⟩ := mem_exclusions_iff.mp h
  exact ⟨hr, he.ne_unfilter⟩

theorem testsOn_eq (field : String) (rules : List Rule) :
    testsOn field rules =
      ⟨(onField field (activeInclusions rules)).map Rule.leaf,
        (onField field (exclusions rules)).map Rule.leaf⟩ := by
  have hleaves : ∀ {kept : List Rule}, (∀ rule ∈ kept, rule.constraint ≠ .unfilter) →
      kept.filterMap Rule.test? = kept.map Rule.leaf := by
    intro kept h
    rw [← List.filterMap_eq_map]
    exact List.filterMap_congr fun rule hr => Rule.test?_eq_some_leaf (h rule hr)
  rw [testsOn, hleaves, hleaves]
  · exact fun rule hr => (mem_of_mem_exclusions (mem_onField_iff.mp hr).1).2
  · exact fun rule hr => (mem_of_mem_activeInclusions (mem_onField_iff.mp hr).1).2

theorem forall_onField_eq_nil_iff {kept : List Rule} (h : ∀ rule ∈ kept, rule ∈ rules) :
    (∀ field ∈ mentioned rules, onField field kept = []) ↔ kept = [] := by
  constructor
  · intro hn
    refine List.eq_nil_iff_forall_not_mem.mpr fun rule hr => ?_
    have hm : rule ∈ onField rule.field kept := mem_onField_iff.mpr ⟨hr, rfl⟩
    rw [hn rule.field (mem_mentioned_iff.mpr ⟨rule, h rule hr, rfl⟩)] at hm
    cases hm
  · rintro rfl field -
    rfl

theorem conditions_eq_nil_iff :
    ((mentioned rules).filterMap fun field => (testsOn field rules).condition?) = [] ↔
      activeInclusions rules = [] ∧ exclusions rules = [] := by
  have ha : (∀ field ∈ mentioned rules, onField field (activeInclusions rules) = []) ↔
      activeInclusions rules = [] :=
    forall_onField_eq_nil_iff fun rule hr => (mem_of_mem_activeInclusions hr).1
  have he : (∀ field ∈ mentioned rules, onField field (exclusions rules) = []) ↔
      exclusions rules = [] :=
    forall_onField_eq_nil_iff fun rule hr => (mem_of_mem_exclusions hr).1
  simp only [List.filterMap_eq_nil_iff, FieldTests.condition?_eq_none_iff, testsOn_eq,
    List.map_eq_nil_iff, forall_and]
  rw [ha, he]

end Resolution

namespace Condition

open Resolution

variable {rules : List Rule}

/-- Field by field, each active inclusion leaves its test outside of all negations, and each
exclusion its test under one. -/
theorem leaves_ofRules (rules : List Rule) :
    (ofRules rules).leaves = (mentioned rules).flatMap fun field =>
      (onField field (activeInclusions rules)).map (·.leaf, 0) ++
        (onField field (exclusions rules)).map (·.leaf, 1) := by
  rw [ofRules_eq, leaves_all, List.filterMap_eq_flatMap_toList, List.flatMap_assoc]
  refine List.flatMap_congr fun field _ => ?_
  have ht := testsOn_eq field rules
  cases hc : (testsOn field rules).condition? with
  | none =>
    obtain ⟨hi, he⟩ := FieldTests.condition?_eq_none_iff.mp hc
    rw [ht] at hi he
    rw [List.map_eq_nil_iff] at hi he
    simp [hi, he]
  | some a =>
    rw [Option.toList_some, List.flatMap_singleton, FieldTests.leaves_of_condition? hc, ht,
      List.map_map, List.map_map]
    rfl

theorem tests_ofRules (rules : List Rule) :
    (ofRules rules).tests = (mentioned rules).flatMap fun field =>
      (onField field (activeInclusions rules)).map Rule.leaf ++
        (onField field (exclusions rules)).map Rule.leaf := by
  simp [tests_eq, leaves_ofRules, List.map_flatMap, Function.comp_def]

theorem exists_leaf_of_mem_tests {t : Test} (h : t ∈ (ofRules rules).tests) :
    ∃ rule ∈ rules, rule.constraint ≠ .unfilter ∧ rule.leaf = t := by
  rw [tests_ofRules, List.mem_flatMap] at h
  obtain ⟨field, -, h⟩ := h
  rw [List.mem_append, List.mem_map, List.mem_map] at h
  rcases h with ⟨rule, hr, ht⟩ | ⟨rule, hr, ht⟩
  · obtain ⟨hr, hu⟩ := mem_of_mem_activeInclusions (mem_onField_iff.mp hr).1
    exact ⟨rule, hr, hu, ht⟩
  · obtain ⟨hr, hu⟩ := mem_of_mem_exclusions (mem_onField_iff.mp hr).1
    exact ⟨rule, hr, hu, ht⟩

theorem exists_of_mem_tests {t : Test} (h : t ∈ (ofRules rules).tests) :
    ∃ rule ∈ rules, rule.test? = some t := by
  obtain ⟨rule, hr, hu, rfl⟩ := exists_leaf_of_mem_tests h
  exact ⟨rule, hr, Rule.test?_eq_some_leaf hu⟩

/-- The tests in the condition of some rules are those of the active inclusions and the exclusions
on each field, one for each in their order, the fields in the order of first mention. The tests of
exclusions stand under one negation and the others under none. Only without a rule in force does
the condition, or a part of it, hold of every document. -/
theorem tests_ofRules_accounts (rules : List Rule) :
    (ofRules rules).tests = ((mentioned rules).flatMap fun field =>
        (onField field (activeInclusions rules)).map Rule.leaf ++
          (onField field (exclusions rules)).map Rule.leaf) ∧
      (ofRules rules).leaves = ((mentioned rules).flatMap fun field =>
        (onField field (activeInclusions rules)).map (·.leaf, 0) ++
          (onField field (exclusions rules)).map (·.leaf, 1)) ∧
      (∀ t ∈ (ofRules rules).tests, t.operator ≠ .unfilter ∧ t.operator ≠ .exclude) ∧
      (ofRules rules = .always ↔ activeInclusions rules = [] ∧ exclusions rules = []) ∧
      ((ofRules rules).HasAlways ↔ activeInclusions rules = [] ∧ exclusions rules = []) := by
  have hfields : ∀ a ∈ (mentioned rules).filterMap fun field => (testsOn field rules).condition?,
      a ≠ always ∧ ¬ a.HasAlways := by
    intro a ha
    obtain ⟨field, -, hc⟩ := List.mem_filterMap.mp ha
    exact ⟨FieldTests.ne_always_of_condition? hc, FieldTests.not_hasAlways_of_condition? hc⟩
  refine ⟨tests_ofRules rules, leaves_ofRules rules, fun t ht => ?_, ?_, ?_⟩
  · obtain ⟨rule, -, hu, rfl⟩ := exists_leaf_of_mem_tests ht
    exact Rule.operator_leaf hu
  · rw [ofRules_eq, all_eq_always_iff fun a ha => (hfields a ha).1, conditions_eq_nil_iff]
  · rw [ofRules_eq, hasAlways_all_iff fun a ha => (hfields a ha).2, conditions_eq_nil_iff]

end Condition

end TallyRules
