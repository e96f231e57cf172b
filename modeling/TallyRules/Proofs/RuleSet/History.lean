import Mathlib.Data.List.Induction
import TallyRules.Proofs.Generation.Outcome

/-! # Histories of rule sets

A set of rules is changed step by step. After any history the rules of a metric
are those added for it since the set was last replaced, in the order in which
they were added, whatever was added for the other metric in between.
-/

namespace TallyRules.RuleSet

inductive Change
  /-- A rule is added, to the set or to a copy of it that takes its place. -/
  | push (rule : Rule)
  | append (rules : List Rule)
  /-- The set of other rules takes the place of this one. -/
  | replace (rules : List Rule)

namespace Change

def apply (set : RuleSet) : Change → RuleSet
  | push rule => set.push rule
  | append rules => set.append rules
  | replace rules => ofList rules

def added : Change → List Rule
  | push rule => [rule]
  | append rules => rules
  | replace rules => rules

def replaces : Change → Bool
  | replace _ => true
  | push _ => false
  | append _ => false

theorem rules_apply (set : RuleSet) (change : Change) (metric : Metric) :
    (change.apply set).rules metric =
      (if change.replaces then [] else set.rules metric) ++
        change.added.filter (·.metric = metric) := by
  cases change with
  | push rule => exact rules_push set rule metric
  | append rules => exact rules_append set rules metric
  | replace rules => exact rules_ofList rules metric

end Change

def ofHistory (changes : List Change) : RuleSet :=
  changes.foldl Change.apply empty

/-- The rules added by the changes that no later change replaces. -/
def lasting : List Change → List Rule
  | [] => []
  | change :: later =>
    if later.any Change.replaces then lasting later else change.added ++ lasting later

theorem lasting_append_singleton (changes : List Change) (change : Change) :
    lasting (changes ++ [change]) =
      (if change.replaces then [] else lasting changes) ++ change.added := by
  induction changes with
  | nil => simp [lasting]
  | cons first changes ih =>
    rw [List.cons_append, lasting, lasting, ih, List.any_append]
    cases hc : change.replaces <;> cases hl : changes.any Change.replaces <;> simp [hc]

/-- The rules of a metric are those added for it since the last replacement. -/
theorem rules_ofHistory (changes : List Change) (metric : Metric) :
    (ofHistory changes).rules metric = (lasting changes).filter (·.metric = metric) := by
  induction changes using List.reverseRecOn with
  | nil => exact rules_empty metric
  | append_singleton changes change ih =>
    have hstep : ofHistory (changes ++ [change]) = change.apply (ofHistory changes) := by
      simp [ofHistory]
    rw [hstep, Change.rules_apply, ih, lasting_append_singleton, List.filter_append]
    split <;> rfl

theorem toList_eq (set : RuleSet) : set.toList = set.rules .numerator ++ set.rules .denominator :=
  rfl

/-- The set of the rules of a set, listed metric by metric, is the set itself, provided that each
rule stands under its metric. -/
theorem ofList_toList {set : RuleSet}
    (h : ∀ metric, ∀ rule ∈ set.rules metric, rule.metric = metric) : ofList set.toList = set := by
  refine ext_rules fun metric => ?_
  rw [rules_ofList, toList_eq, List.filter_append, filter_metric (h .numerator),
    filter_metric (h .denominator)]
  cases metric
  · exact List.append_nil _
  · rfl

/-- What was added for one metric does not show in the other. -/
theorem ofHistory_isolated (changes : List Change) :
    (∀ metric, (ofHistory changes).rules metric = (lasting changes).filter (·.metric = metric)) ∧
      (ofHistory changes).toList =
        (lasting changes).filter (·.metric = .numerator) ++
          (lasting changes).filter (·.metric = .denominator) ∧
      ofList (ofHistory changes).toList = ofHistory changes ∧
      (∀ others, ofHistory others = ofHistory changes ↔
        ∀ metric, (lasting others).filter (·.metric = metric) =
          (lasting changes).filter (·.metric = metric)) ∧
      (∀ metric, (ofHistory changes).resolve.value.condition metric =
        .ofRules ((lasting changes).filter (·.metric = metric))) ∧
      (ofHistory changes).resolve.value.warnings =
        ([Metric.numerator, .denominator].filter fun metric =>
          ∀ rule ∈ lasting changes, rule.metric ≠ metric).map .noRules := by
  have hrules := rules_ofHistory changes
  refine ⟨hrules, ?_, ?_, fun others => ⟨?_, ?_⟩, fun metric => ?_, ?_⟩
  · rw [toList_eq, hrules, hrules]
  · refine ofList_toList fun metric rule hr => ?_
    rw [hrules] at hr
    simpa using (List.mem_filter.mp hr).2
  · intro he metric
    rw [← hrules, ← rules_ofHistory, he]
  · intro he
    exact ext_rules fun metric => by rw [rules_ofHistory, he, hrules]
  · rw [condition_resolve, hrules]
  · have hw : (ofHistory changes).resolve.value.warnings = (ofHistory changes).warnings := rfl
    rw [hw, warnings, Metric.all]
    congr 1
    refine List.filter_congr fun metric _ => ?_
    rw [hrules, Bool.eq_iff_iff]
    simp

end TallyRules.RuleSet
