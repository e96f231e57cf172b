import TallyRules.Proofs.Except
import TallyRules.Script.Rendering

/-! # Conditions that have an expression

A condition has an expression if all its tests have a meaning. This does not
depend on where the fields are read.
-/

namespace TallyRules

open Script (Expr)

variable {access : Access}

namespace Test

/-- The test has a field, and as many values as its operator takes. -/
def WellFormed (t : Test) : Prop :=
  ¬ Text.isBlank t.field ∧
    match t.operator with
    | .filter => t.values.length = 1
    | .exclude => t.values.length = 1
    | .contain => t.values ≠ []
    | .present => t.values = []
    | .unfilter => False

theorem toExpr_cases {t : Test} {e : Expr} (h : t.toExpr access = .ok e) :
    (∃ v, t.operator = .filter ∧ t.values = [v] ∧
      e = access.guardInclusion t.field (access.compare t.field .eq v)) ∨
    (∃ v, t.operator = .exclude ∧ t.values = [v] ∧
      e = access.guardExclusion t.field (access.compare t.field .ne v)) ∨
    (∃ first rest, t.operator = .contain ∧ t.values = first :: rest ∧
      e = access.guardInclusion t.field (access.compareAny t.field first rest)) ∨
    (t.operator = .present ∧ t.values = [] ∧ e = access.has t.field) := by
  unfold toExpr at h
  split at h
  · cases h
  · split at h <;> cases h
    · rename_i v ho hv
      exact Or.inl ⟨v, ho, hv, rfl⟩
    · rename_i v ho hv
      exact Or.inr (Or.inl ⟨v, ho, hv, rfl⟩)
    · rename_i first rest ho hv
      exact Or.inr (Or.inr (Or.inl ⟨first, rest, ho, hv, rfl⟩))
    · rename_i ho hv
      exact Or.inr (Or.inr (Or.inr ⟨ho, hv, rfl⟩))

theorem exists_toExpr_iff {t : Test} : (∃ e, t.toExpr access = .ok e) ↔ t.WellFormed := by
  unfold toExpr WellFormed
  by_cases hb : Text.isBlank t.field = true
  · simp [hb]
  · rw [if_neg hb]
    split <;> simp_all [List.length_eq_one_iff]

end Test

namespace Condition

theorem toExpr_and_iff {a b : Condition} {e : Expr} :
    (and a b).toExpr access = .ok e ↔
      ∃ x y, a.toExpr access = .ok x ∧ b.toExpr access = .ok y ∧
        e = .paren (.binary .and x y) := by
  simp only [toExpr, bind_eq_ok_iff, pure, Except.pure, Except.ok.injEq]
  constructor
  · rintro ⟨x, hx, y, hy, rfl⟩
    exact ⟨x, y, hx, hy, rfl⟩
  · rintro ⟨x, y, hx, hy, rfl⟩
    exact ⟨x, hx, y, hy, rfl⟩

theorem toExpr_or_iff {a b : Condition} {e : Expr} :
    (or a b).toExpr access = .ok e ↔
      ∃ x y, a.toExpr access = .ok x ∧ b.toExpr access = .ok y ∧
        e = .paren (.binary .or x y) := by
  simp only [toExpr, bind_eq_ok_iff, pure, Except.pure, Except.ok.injEq]
  constructor
  · rintro ⟨x, hx, y, hy, rfl⟩
    exact ⟨x, y, hx, hy, rfl⟩
  · rintro ⟨x, y, hx, hy, rfl⟩
    exact ⟨x, hx, y, hy, rfl⟩

theorem toExpr_not_iff {a : Condition} {e : Expr} :
    (not a).toExpr access = .ok e ↔ ∃ x, a.toExpr access = .ok x ∧ e = .not (.paren x) := by
  simp only [toExpr, bind_eq_ok_iff, pure, Except.pure, Except.ok.injEq]
  constructor
  · rintro ⟨x, hx, rfl⟩
    exact ⟨x, hx, rfl⟩
  · rintro ⟨x, hx, rfl⟩
    exact ⟨x, hx, rfl⟩

theorem exists_toExpr_iff {a : Condition} :
    (∃ e, a.toExpr access = .ok e) ↔ ∀ t ∈ a.tests, t.WellFormed := by
  induction a with
  | always => simp [toExpr, tests]
  | test t => simp [toExpr, tests, Test.exists_toExpr_iff]
  | and a b iha ihb =>
    simp only [toExpr_and_iff, tests, List.forall_mem_append, ← iha, ← ihb]
    constructor
    · rintro ⟨_, x, y, hx, hy, _⟩
      exact ⟨⟨x, hx⟩, ⟨y, hy⟩⟩
    · rintro ⟨⟨x, hx⟩, ⟨y, hy⟩⟩
      exact ⟨_, x, y, hx, hy, rfl⟩
  | or a b iha ihb =>
    simp only [toExpr_or_iff, tests, List.forall_mem_append, ← iha, ← ihb]
    constructor
    · rintro ⟨_, x, y, hx, hy, _⟩
      exact ⟨⟨x, hx⟩, ⟨y, hy⟩⟩
    · rintro ⟨⟨x, hx⟩, ⟨y, hy⟩⟩
      exact ⟨_, x, y, hx, hy, rfl⟩
  | not a ih =>
    simp only [toExpr_not_iff, tests, ← ih]
    constructor
    · rintro ⟨_, x, hx, _⟩
      exact ⟨x, hx⟩
    · rintro ⟨x, hx⟩
      exact ⟨_, x, hx, rfl⟩

@[simp]
theorem value_render (a : Condition) : (a.render access).value = a.toExpr access := rfl

end Condition

end TallyRules
