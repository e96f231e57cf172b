import Mathlib.Data.List.Induction
import TallyRules.Resolution

/-! # Rules field by field

The groups of a list of rules are its fields, in the order of first mention,
each with the rules on it. The rules of a group leave behind the inclusions
that no later unfilter cancels, and all exclusions.
-/

namespace TallyRules

namespace Rule

def test? (rule : Rule) : Option Test :=
  match rule.constraint with
  | .filter value => some (.equals rule.field value)
  | .exclude value => some (.equals rule.field value)
  | .contain values => some (.oneOf rule.field values)
  | .present => some (.present rule.field)
  | .unfilter => none

def Cancels (later rule : Rule) : Prop :=
  later.field = rule.field ∧ later.constraint = .unfilter

instance (later rule : Rule) : Decidable (later.Cancels rule) :=
  inferInstanceAs (Decidable (_ ∧ _))

/-- An inclusion that stays active when some rules come after it. -/
def IncludesBefore (rule : Rule) (later : List Rule) : Prop :=
  match rule.constraint with
  | .filter _ => ∀ r ∈ later, ¬ r.Cancels rule
  | .contain _ => True
  | .present => True
  | .exclude _ => False
  | .unfilter => False

instance (rule : Rule) (later : List Rule) : Decidable (rule.IncludesBefore later) :=
  match h : rule.constraint with
  | .filter _ => decidable_of_iff (∀ r ∈ later, ¬ r.Cancels rule) (by simp [IncludesBefore, h])
  | .contain _ => isTrue (by simp [IncludesBefore, h])
  | .present => isTrue (by simp [IncludesBefore, h])
  | .exclude _ => isFalse (by simp [IncludesBefore, h])
  | .unfilter => isFalse (by simp [IncludesBefore, h])

def Excludes (rule : Rule) : Prop :=
  rule.constraint.operator = .exclude

instance (rule : Rule) : Decidable rule.Excludes :=
  inferInstanceAs (Decidable (_ = _))

end Rule

namespace Resolution

/-- The fields of some rules, in the order of first mention. -/
def mentioned (rules : List Rule) : List String :=
  (rules.map Rule.field).eraseDups

def onField (field : String) (rules : List Rule) : List Rule :=
  rules.filter (·.field = field)

@[simp]
theorem mem_mentioned_iff {field : String} {rules : List Rule} :
    field ∈ mentioned rules ↔ ∃ rule ∈ rules, rule.field = field := by
  simp [mentioned]

theorem mentioned_append_singleton (rules : List Rule) (rule : Rule) :
    mentioned (rules ++ [rule]) =
      if rule.field ∈ mentioned rules then mentioned rules
      else mentioned rules ++ [rule.field] := by
  have hnew : [rule.field].removeAll (rules.map Rule.field) =
      if rule.field ∈ mentioned rules then [] else [rule.field] := by
    by_cases h : ∃ r ∈ rules, r.field = rule.field
    · rw [if_pos (mem_mentioned_iff.mpr h)]
      simp [List.removeAll, h]
    · rw [if_neg (mt mem_mentioned_iff.mp h)]
      simp [List.removeAll, h]
  rw [mentioned, List.map_append, List.eraseDups_append, List.map_singleton, hnew]
  split
  · exact List.append_nil _
  · simp [mentioned, List.eraseDups_cons]

theorem nodup_mentioned (rules : List Rule) : (mentioned rules).Nodup := by
  induction rules using List.reverseRecOn with
  | nil => exact List.nodup_nil
  | append_singleton rules rule ih =>
    rw [mentioned_append_singleton]
    split
    · exact ih
    · rename_i h
      refine List.nodup_append.mpr ⟨ih, by simp, ?_⟩
      rintro field hf _ hr rfl
      exact h (List.mem_singleton.mp hr ▸ hf)

@[simp]
theorem mem_onField_iff {field : String} {rules : List Rule} {rule : Rule} :
    rule ∈ onField field rules ↔ rule ∈ rules ∧ rule.field = field := by
  simp [onField]

theorem onField_append_singleton (field : String) (rules : List Rule) (rule : Rule) :
    onField field (rules ++ [rule]) =
      if rule.field = field then onField field rules ++ [rule] else onField field rules := by
  by_cases h : rule.field = field <;> simp [onField, h]

theorem addToGroup_map {fields : List String} (hn : fields.Nodup) (rules : List Rule)
    (rule : Rule) (h : rule.field ∈ fields) :
    addToGroup rule (fields.map fun field => (field, onField field rules)) =
      fields.map fun field => (field, onField field (rules ++ [rule])) := by
  induction fields with
  | nil => simp at h
  | cons field fields ih =>
    obtain ⟨hf, hn⟩ := List.nodup_cons.mp hn
    simp only [List.map_cons, addToGroup]
    by_cases he : field = rule.field
    · subst he
      have hrest : ∀ field ∈ fields, onField field (rules ++ [rule]) = onField field rules := by
        intro field hm
        rw [onField_append_singleton, if_neg]
        rintro rfl
        exact hf hm
      rw [if_pos rfl, onField_append_singleton, if_pos rfl]
      exact congrArg _ (List.map_congr_left fun field hm => by rw [hrest field hm])
    · have hm : rule.field ∈ fields := by
        rcases List.mem_cons.mp h with h | h
        · exact absurd h.symm he
        · exact h
      rw [if_neg he, ih hn hm, onField_append_singleton, if_neg (Ne.symm he)]

theorem addToGroup_map_of_notMem {fields : List String} (rules : List Rule) (rule : Rule)
    (h : rule.field ∉ fields) :
    addToGroup rule (fields.map fun field => (field, onField field rules)) =
      (fields.map fun field => (field, onField field (rules ++ [rule]))) ++
        [(rule.field, [rule])] := by
  induction fields with
  | nil => rfl
  | cons field fields ih =>
    obtain ⟨he, hm⟩ := not_or.mp (mt List.mem_cons.mpr h)
    simp only [List.map_cons, List.cons_append, addToGroup]
    rw [if_neg (Ne.symm he), ih hm, onField_append_singleton, if_neg he]

theorem groupByField_append_singleton (rules : List Rule) (rule : Rule) :
    groupByField (rules ++ [rule]) = addToGroup rule (groupByField rules) := by
  simp [groupByField]

theorem groupByField_of_field {field : String} {rules : List Rule} (hne : rules ≠ [])
    (hf : ∀ rule ∈ rules, rule.field = field) : groupByField rules = [(field, rules)] := by
  induction rules using List.reverseRecOn with
  | nil => exact absurd rfl hne
  | append_singleton rules rule ih =>
    obtain ⟨hrules, hrule⟩ := List.forall_mem_append.mp hf
    have hlast : rule.field = field := hrule rule List.mem_cons_self
    rw [groupByField_append_singleton]
    by_cases hn : rules = []
    · simp [hn, groupByField, addToGroup, hlast]
    · simp [ih hn hrules, addToGroup, hlast]

/-- Grouping lists the fields in the order of first mention, each with its rules in order. -/
theorem groupByField_eq (rules : List Rule) :
    groupByField rules = (mentioned rules).map fun field => (field, onField field rules) := by
  induction rules using List.reverseRecOn with
  | nil => rfl
  | append_singleton rules rule ih =>
    rw [groupByField_append_singleton, ih, mentioned_append_singleton]
    split
    · rename_i h
      exact addToGroup_map (nodup_mentioned rules) rules rule h
    · rename_i h
      have hnew : onField rule.field rules = [] := by
        refine List.filter_eq_nil_iff.mpr fun r hr => ?_
        simpa using fun he => h (mem_mentioned_iff.mpr ⟨r, hr, he⟩)
      rw [addToGroup_map_of_notMem rules rule h, List.map_append, List.map_singleton,
        onField_append_singleton, if_pos rfl, hnew, List.nil_append]

def activeInclusions : List Rule → List Rule
  | [] => []
  | rule :: later =>
    if rule.IncludesBefore later then rule :: activeInclusions later else activeInclusions later

def exclusions (rules : List Rule) : List Rule :=
  rules.filter (·.Excludes)

@[simp]
theorem mem_exclusions_iff {rules : List Rule} {rule : Rule} :
    rule ∈ exclusions rules ↔ rule ∈ rules ∧ rule.Excludes := by
  simp [exclusions]

theorem exclusions_onField (field : String) (rules : List Rule) :
    exclusions (onField field rules) = onField field (exclusions rules) := by
  simp [exclusions, onField, List.filter_filter, Bool.and_comm]

theorem mem_activeInclusions_iff {rules : List Rule} {rule : Rule} :
    rule ∈ activeInclusions rules ↔
      ∃ before later, rules = before ++ rule :: later ∧ rule.IncludesBefore later := by
  induction rules with
  | nil => simp [activeInclusions]
  | cons first rules ih =>
    have hmem : rule ∈ activeInclusions (first :: rules) ↔
        rule = first ∧ first.IncludesBefore rules ∨ rule ∈ activeInclusions rules := by
      rw [activeInclusions]
      split <;> simp_all
    rw [hmem, ih]
    constructor
    · rintro (⟨rfl, h⟩ | ⟨before, later, rfl, h⟩)
      · exact ⟨[], rules, rfl, h⟩
      · exact ⟨first :: before, later, rfl, h⟩
    · rintro ⟨before, later, he, h⟩
      cases before with
      | nil =>
        obtain ⟨rfl, rfl⟩ := List.cons.inj he
        exact Or.inl ⟨rfl, h⟩
      | cons r before =>
        obtain ⟨rfl, rfl⟩ := List.cons.inj he
        exact Or.inr ⟨before, later, rfl, h⟩

theorem includesBefore_onField_iff {rule : Rule} {later : List Rule} :
    rule.IncludesBefore (onField rule.field later) ↔ rule.IncludesBefore later := by
  unfold Rule.IncludesBefore
  split
  · constructor
    · intro h r hr hc
      exact h r (mem_onField_iff.mpr ⟨hr, hc.1⟩) hc
    · intro h r hr
      exact h r (mem_onField_iff.mp hr).1
  all_goals rfl

theorem activeInclusions_onField (field : String) (rules : List Rule) :
    activeInclusions (onField field rules) = onField field (activeInclusions rules) := by
  induction rules with
  | nil => rfl
  | cons rule later ih =>
    by_cases hf : rule.field = field
    · subst hf
      have hc : onField rule.field (rule :: later) = rule :: onField rule.field later := by
        simp [onField]
      rw [hc, activeInclusions, activeInclusions, ih]
      by_cases h : rule.IncludesBefore later
      · rw [if_pos (includesBefore_onField_iff.mpr h), if_pos h]
        simp [onField]
      · rw [if_neg (mt includesBefore_onField_iff.mp h), if_neg h]
    · have hc : onField field (rule :: later) = onField field later := by
        simp [onField, hf]
      rw [hc, ih, activeInclusions]
      split <;> simp [onField, hf]

/-- What the rules that follow leave of some tests. -/
def keptBefore (later : List Rule) (tests : List Test) : List Test :=
  if ∃ rule ∈ later, rule.constraint = .unfilter then tests.filter (!FieldTests.isFilter ·)
  else tests

theorem keptBefore_cons (rule : Rule) (later : List Rule) (tests : List Test) :
    keptBefore (rule :: later) tests =
      if rule.constraint = .unfilter then tests.filter (!FieldTests.isFilter ·)
      else keptBefore later tests := by
  unfold keptBefore
  by_cases h : rule.constraint = .unfilter <;> simp [h]

theorem keptBefore_append (later : List Rule) (tests added : List Test) :
    keptBefore later (tests ++ added) = keptBefore later tests ++ keptBefore later added := by
  unfold keptBefore
  split
  · exact List.filter_append ..
  · rfl

theorem keptBefore_singleton (later : List Rule) {t : Test} (h : t.operator ≠ .filter) :
    keptBefore later [t] = [t] := by
  unfold keptBefore
  split <;> simp [FieldTests.isFilter, h]

theorem keptBefore_filter (later : List Rule) (tests : List Test) :
    keptBefore later (tests.filter (!FieldTests.isFilter ·)) =
      tests.filter (!FieldTests.isFilter ·) := by
  unfold keptBefore
  split <;> simp

/-- Rules on one field leave of the tests before them what no unfilter cancels, and add their
active inclusions and their exclusions. -/
theorem foldl_apply {field : String} {rules : List Rule}
    (h : ∀ rule ∈ rules, rule.field = field) (tests : FieldTests) :
    rules.foldl FieldTests.apply tests =
      ⟨keptBefore rules tests.includes ++ (activeInclusions rules).filterMap Rule.test?,
        tests.excludes ++ (exclusions rules).filterMap Rule.test?⟩ := by
  induction rules generalizing tests with
  | nil => simp [keptBefore, activeInclusions, exclusions]
  | cons rule later ih =>
    obtain ⟨hf, hl⟩ := List.forall_mem_cons.mp h
    rw [List.foldl_cons, ih hl, keptBefore_cons, activeInclusions]
    cases hc : rule.constraint with
    | filter value =>
      -- all rules are on one field, so any unfilter that follows cancels the filter
      have hact : rule.IncludesBefore later ↔ ¬ ∃ r ∈ later, r.constraint = .unfilter := by
        simp only [Rule.IncludesBefore, hc, Rule.Cancels, not_exists, not_and]
        exact ⟨fun h r hr => h r hr ((hl r hr).trans hf.symm), fun h r hr _ => h r hr⟩
      by_cases hu : ∃ r ∈ later, r.constraint = .unfilter
      · simp [FieldTests.apply, FieldTests.isFilter, exclusions, Rule.Excludes, Test.equals,
          Constraint.operator, keptBefore, hc, hact, hu]
      · simp [FieldTests.apply, exclusions, Rule.Excludes, Rule.test?, Constraint.operator,
          keptBefore, hc, hact, hu]
    | exclude value =>
      simp [FieldTests.apply, exclusions, Rule.Excludes, Rule.IncludesBefore, Rule.test?,
        Constraint.operator, hc]
    | unfilter =>
      simp [FieldTests.apply, exclusions, Rule.Excludes, Rule.IncludesBefore,
        Constraint.operator, keptBefore_filter, hc]
    | contain values =>
      have hk : keptBefore later [Test.oneOf rule.field values] = [.oneOf rule.field values] :=
        keptBefore_singleton later (by simp [Test.oneOf])
      simp [FieldTests.apply, exclusions, Rule.Excludes, Rule.IncludesBefore, Rule.test?,
        Constraint.operator, keptBefore_append, hk, hc]
    | present =>
      have hk : keptBefore later [Test.present rule.field] = [.present rule.field] :=
        keptBefore_singleton later (by simp [Test.present])
      simp [FieldTests.apply, exclusions, Rule.Excludes, Rule.IncludesBefore, Rule.test?,
        Constraint.operator, keptBefore_append, hk, hc]

def testsOn (field : String) (rules : List Rule) : FieldTests :=
  ⟨(onField field (activeInclusions rules)).filterMap Rule.test?,
    (onField field (exclusions rules)).filterMap Rule.test?⟩

theorem fieldCondition?_onField (field : String) (rules : List Rule) :
    fieldCondition? (onField field rules) = (testsOn field rules).condition? := by
  have hf : ∀ rule ∈ onField field rules, rule.field = field :=
    fun rule hr => (mem_onField_iff.mp hr).2
  rw [fieldCondition?, foldl_apply hf, activeInclusions_onField, exclusions_onField]
  simp [testsOn, FieldTests.none, keptBefore]

end Resolution

theorem Condition.ofRules_eq (rules : List Rule) :
    ofRules rules = all ((Resolution.mentioned rules).filterMap fun field =>
      (Resolution.testsOn field rules).condition?) := by
  rw [ofRules, Resolution.groupByField_eq, List.filterMap_map]
  congr 2
  funext field
  exact Resolution.fieldCondition?_onField field rules

/-- Rules that mention the same fields in the same order, with the same active inclusions and the
same exclusions, make up the same condition. -/
theorem Condition.ofRules_congr {rules others : List Rule}
    (hm : Resolution.mentioned rules = Resolution.mentioned others)
    (ht : ∀ field, Resolution.testsOn field rules = Resolution.testsOn field others) :
    ofRules rules = ofRules others := by
  simp only [ofRules_eq, hm, ht]

end TallyRules
