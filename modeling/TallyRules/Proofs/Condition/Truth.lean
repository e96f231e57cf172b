import Mathlib.Data.List.Induction
import TallyRules.Condition

/-! # Truth of conditions

A condition is true or false once each of its tests is. A conjunction grouped
from the left is true if all its parts are, and a disjunction if one part is.
-/

namespace TallyRules.Condition

variable {truth : Test → Bool}

/-- Whether a condition holds, given which tests do. -/
def holds (truth : Test → Bool) : Condition → Bool
  | always => true
  | test t => truth t
  | and a b => a.holds truth && b.holds truth
  | or a b => a.holds truth || b.holds truth
  | not a => !a.holds truth

theorem holds_foldl_or (a : Condition) (parts : List Condition) :
    (parts.foldl or a).holds truth = (a.holds truth || parts.any (·.holds truth)) := by
  induction parts generalizing a with
  | nil => simp
  | cons b parts ih => rw [List.foldl_cons, ih, holds, List.any_cons, Bool.or_assoc]

theorem holds_foldl_and (a : Condition) (parts : List Condition) :
    (parts.foldl and a).holds truth = (a.holds truth && parts.all (·.holds truth)) := by
  induction parts generalizing a with
  | nil => simp
  | cons b parts ih => rw [List.foldl_cons, ih, holds, List.all_cons, Bool.and_assoc]

theorem holds_of_any? {parts : List Condition} {a : Condition} (h : any? parts = some a) :
    a.holds truth = parts.any (·.holds truth) := by
  cases parts with
  | nil => simp [any?] at h
  | cons b parts =>
    obtain rfl := Option.some.inj h
    rw [holds_foldl_or, List.any_cons]

@[simp]
theorem holds_all (parts : List Condition) :
    (all parts).holds truth = parts.all (·.holds truth) := by
  cases parts with
  | nil => rfl
  | cons b parts => rw [all, holds_foldl_and, List.all_cons]

theorem ne_always_of_any? {parts : List Condition} (hp : ∀ a ∈ parts, a ≠ always)
    {a : Condition} (h : any? parts = some a) : a ≠ always := by
  cases parts with
  | nil => simp [any?] at h
  | cons b parts =>
    obtain rfl := Option.some.inj h
    cases parts using List.reverseRecOn with
    | nil => exact hp b List.mem_cons_self
    | append_singleton parts c => simp

theorem all_eq_always_iff {parts : List Condition} (hp : ∀ a ∈ parts, a ≠ always) :
    all parts = always ↔ parts = [] := by
  constructor
  · intro he
    cases parts with
    | nil => rfl
    | cons a parts =>
      cases parts using List.reverseRecOn with
      | nil => exact absurd he (hp a List.mem_cons_self)
      | append_singleton parts b => simp [all] at he
  · rintro rfl
    rfl

end TallyRules.Condition
