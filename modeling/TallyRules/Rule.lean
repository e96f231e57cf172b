import TallyRules.Metric
import TallyRules.Operator
import TallyRules.Value

/-! # Rules

A rule puts a constraint on one field of the documents that count towards a
metric. A rule set keeps the rules of each metric in the order in which they
were added; that order matters, because an unfilter only cancels the filters
before it.
-/

namespace TallyRules

/-- An operator with the values that it needs. -/
inductive Constraint
  | filter (value : Value)
  | exclude (value : Value)
  | unfilter
  | contain (values : List Value)
  | present
  deriving DecidableEq

namespace Constraint

def operator : Constraint → Operator
  | filter _ => .filter
  | exclude _ => .exclude
  | unfilter => .unfilter
  | contain _ => .contain
  | present => .present

def values : Constraint → List Value
  | filter value => [value]
  | exclude value => [value]
  | unfilter => []
  | contain values => values
  | present => []

end Constraint

/-- A constraint on a field, for one metric. -/
structure Rule where
  metric : Metric
  field : String
  constraint : Constraint
  deriving DecidableEq

def Rule.text (rule : Rule) : String :=
  "[" ++ rule.metric.name ++ "] " ++ rule.constraint.operator.name ++ " " ++ rule.field ++
    match rule.constraint with
    | .filter value => " " ++ value.text
    | .exclude value => " " ++ value.text
    | .contain values => " [" ++ Value.listText values ++ "]"
    | .unfilter => ""
    | .present => ""

structure RuleSet where
  numerator : List Rule
  denominator : List Rule
  deriving DecidableEq, Inhabited

namespace RuleSet

def empty : RuleSet := ⟨[], []⟩

/-- Adds a rule after those of its metric. -/
def push (set : RuleSet) (rule : Rule) : RuleSet :=
  match rule.metric with
  | .numerator => { set with numerator := set.numerator ++ [rule] }
  | .denominator => { set with denominator := set.denominator ++ [rule] }

def append (set : RuleSet) (rules : List Rule) : RuleSet :=
  rules.foldl push set

def ofList (rules : List Rule) : RuleSet :=
  empty.append rules

/-- The rules of a metric, in the order in which they were added. -/
def rules (set : RuleSet) : Metric → List Rule
  | .numerator => set.numerator
  | .denominator => set.denominator

theorem ext_rules {a b : RuleSet} (h : ∀ metric, a.rules metric = b.rules metric) : a = b := by
  obtain ⟨numerator, denominator⟩ := a
  obtain rfl : numerator = b.numerator := h .numerator
  obtain rfl : denominator = b.denominator := h .denominator
  rfl

@[simp]
theorem rules_empty (metric : Metric) : empty.rules metric = [] := by
  cases metric <;> rfl

theorem rules_push (set : RuleSet) (rule : Rule) (metric : Metric) :
    (set.push rule).rules metric =
      set.rules metric ++ [rule].filter (·.metric = metric) := by
  cases h : rule.metric <;> cases metric <;> simp [push, rules, h]

theorem rules_append (set : RuleSet) (added : List Rule) (metric : Metric) :
    (set.append added).rules metric =
      set.rules metric ++ added.filter (·.metric = metric) := by
  induction added generalizing set with
  | nil => simp [append]
  | cons rule added ih =>
    have h := ih (set.push rule)
    simp only [append, List.foldl_cons] at h ⊢
    rw [h, rules_push, List.append_assoc, ← List.filter_append, List.singleton_append]

theorem rules_ofList (added : List Rule) (metric : Metric) :
    (ofList added).rules metric = added.filter (·.metric = metric) := by
  rw [ofList, rules_append, rules_empty, List.nil_append]

theorem filter_metric {added : List Rule} {metric : Metric}
    (h : ∀ rule ∈ added, rule.metric = metric) (other : Metric) :
    added.filter (·.metric = other) = if other = metric then added else [] := by
  split
  · rename_i he
    exact List.filter_eq_self.mpr fun rule hr => decide_eq_true ((h rule hr).trans he.symm)
  · rename_i hne
    refine List.filter_eq_nil_iff.mpr fun rule hr he => ?_
    exact hne ((of_decide_eq_true he).symm.trans (h rule hr))

theorem rules_ofList_of_metric {added : List Rule} {metric : Metric}
    (h : ∀ rule ∈ added, rule.metric = metric) (other : Metric) :
    (ofList added).rules other = if other = metric then added else [] := by
  rw [rules_ofList, filter_metric h]

/-- All rules, those of the numerator first. -/
def toList (set : RuleSet) : List Rule :=
  set.numerator ++ set.denominator

def size (set : RuleSet) : Nat :=
  set.numerator.length + set.denominator.length

theorem size_push (set : RuleSet) (rule : Rule) : (set.push rule).size = set.size + 1 := by
  unfold push size
  split <;> simp only [List.length_append, List.length_singleton] <;> omega

theorem size_append (set : RuleSet) (rules : List Rule) :
    (set.append rules).size = set.size + rules.length := by
  induction rules generalizing set with
  | nil => rfl
  | cons rule rules ih =>
    have h := ih (set.push rule)
    rw [append] at h ⊢
    rw [List.foldl_cons, h, size_push, List.length_cons]
    omega

theorem size_ofList (rules : List Rule) : (ofList rules).size = rules.length := by
  rw [ofList, size_append]
  exact Nat.zero_add _

def isEmpty (set : RuleSet) : Bool :=
  set.numerator.isEmpty && set.denominator.isEmpty

def text (set : RuleSet) : String :=
  "RuleSet(" ++ toString set.numerator.length ++ " numerator rules, " ++
    toString set.denominator.length ++ " denominator rules)"

end RuleSet

end TallyRules
