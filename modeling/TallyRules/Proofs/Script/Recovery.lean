import TallyRules.Proofs.Script.Reading
import TallyRules.Proofs.Script.Rendering

/-! # Conditions recovered from their texts

The text of a condition has one reading, in which each connective of the
condition stands for itself and each test is the comparison of its field with
its values, of the types they have. So no field and no value can add to a
condition or take away from it.
-/

namespace TallyRules

open Script (BinaryOp Expr Reads)

/-- The literal of a value. A number that is not finite is a constant. -/
def Value.literal : Value → Expr
  | int n => .long n
  | bool b => .bool b
  | string s => .string s
  | float .nan => .property (.var "Double") "NaN"
  | float (.infinite false) => .property (.var "Double") "POSITIVE_INFINITY"
  | float (.infinite true) => .property (.var "Double") "NEGATIVE_INFINITY"
  | float (.finite negative m p h) => .double (.finite negative m p h)

namespace Access

def fieldTree (field : String) : Access → Expr
  | source => .index (.index (.var "params") (.string "_source")) (.string field)
  | docValues => .property (.index (.var "doc") (.string field)) "value"

def hasTree (field : String) : Access → Expr
  | source => .binary .ne (source.fieldTree field) .null
  | docValues => .binary .and (.callWith (.var "doc") "containsKey" (.string field))
      (.binary .gt (.call (.index (.var "doc") (.string field)) "size") (.integer 0))

def inclusionTree (field : String) (comparison : Expr) : Access → Expr
  | source => comparison
  | docValues => .binary .and (docValues.hasTree field) comparison

def exclusionTree (field : String) (comparison : Expr) : Access → Expr
  | source => comparison
  | docValues => .binary .or (.not (docValues.hasTree field)) comparison

end Access

def Test.tree (access : Access) (t : Test) : Expr :=
  let compare (op : BinaryOp) (v : Value) : Expr :=
    .binary op (access.fieldTree t.field) v.literal
  match t.operator, t.values with
  | .filter, [v] => access.inclusionTree t.field (compare .eq v)
  | .exclude, [v] => access.exclusionTree t.field (compare .ne v)
  | .contain, v :: rest =>
    access.inclusionTree t.field ((rest.map (compare .eq)).foldl (.binary .or) (compare .eq v))
  | .present, [] => access.hasTree t.field
  | _, _ => .null

def Condition.tree (access : Access) : Condition → Expr
  | always => .bool true
  | test t => t.tree access
  | and a b => .binary .and (a.tree access) (b.tree access)
  | or a b => .binary .or (a.tree access) (b.tree access)
  | not a => .not (a.tree access)

theorem Value.literal_injective : Function.Injective literal := by
  rintro (_ | (_ | (_ | _) | _) | _ | _) (_ | (_ | (_ | _) | _) | _ | _) h <;>
    simp_all [literal]

namespace Script.Expr

/-- The expression is a way to write a tree as an operand at a level. -/
structure Writes (n : Nat) (e t : Expr) : Prop where
  readable : e.Readable
  bare : e.bare = t
  level : n ≤ e.level

variable {n : Nat} {a b s t : Expr}

theorem Writes.paren (h : Writes 0 a t) : Writes 6 (.paren a) t :=
  ⟨h.readable, h.bare, Nat.le_refl 6⟩

theorem Writes.not (h : Writes 6 a t) : Writes 5 (.not a) (.not t) := by
  refine ⟨⟨h.readable, ?_⟩, ?_, Nat.le_refl 5⟩
  · exact Nat.le_antisymm a.level_le h.level
  · rw [Expr.bare, h.bare]

theorem Writes.binary {o : BinaryOp} (ha : Writes o.level a s) (hb : Writes (o.level + 1) b t) :
    Writes o.level (.binary o a b) (.binary o s t) :=
  ⟨⟨ha.readable, ha.level, hb.readable, hb.level⟩, by rw [Expr.bare, ha.bare, hb.bare],
    Nat.le_refl _⟩

theorem Writes.mono {m : Nat} (h : Writes n a t) (hm : m ≤ n) : Writes m a t :=
  ⟨h.readable, h.bare, Nat.le_trans hm h.level⟩

end Script.Expr

open Script.Expr (Writes)

theorem Value.writes_literal (v : Value) : Writes 6 v.toExpr v.literal := by
  cases v with
  | int n => exact ⟨trivial, rfl, Nat.le_refl 6⟩
  | bool b => exact ⟨trivial, rfl, Nat.le_refl 6⟩
  | string s => exact ⟨trivial, rfl, Nat.le_refl 6⟩
  | float x =>
    cases x with
    | finite negative m p h => exact ⟨rfl, rfl, Nat.le_refl 6⟩
    | nan => exact ⟨⟨⟨rfl, by decide⟩, rfl, rfl, rfl⟩, rfl, Nat.le_refl 6⟩
    | infinite negative =>
      cases negative <;> exact ⟨⟨⟨rfl, by decide⟩, rfl, rfl, rfl⟩, rfl, Nat.le_refl 6⟩

namespace Access

variable {access : Access} {a t : Expr} {field : String}

theorem writes_read (access : Access) (field : String) :
    Writes 6 (access.read field) (access.fieldTree field) := by
  cases access with
  | source =>
    exact ⟨⟨⟨⟨rfl, by decide⟩, rfl, trivial⟩, rfl, trivial⟩, rfl, Nat.le_refl 6⟩
  | docValues => exact ⟨⟨⟨⟨rfl, by decide⟩, rfl, trivial⟩, rfl, rfl, rfl⟩, rfl, Nat.le_refl 6⟩

theorem writes_compare (access : Access) (field : String) {o : BinaryOp} (ho : o.level = 2)
    (v : Value) :
    Writes 2 (access.compare field o v) (.binary o (access.fieldTree field) v.literal) := by
  rw [← ho]
  exact ((access.writes_read field).mono (by omega)).binary (v.writes_literal.mono (by omega))

theorem writes_has_docValues (field : String) :
    Writes 6 (docValues.has field) (docValues.hasTree field) := by
  refine Writes.paren (Writes.mono (Writes.binary (o := .and) ?_ ?_) (by decide))
  · exact ⟨⟨⟨rfl, by decide⟩, rfl, rfl, rfl, trivial⟩, rfl, show 1 ≤ 6 by decide⟩
  · refine Writes.mono (Writes.binary (o := .gt) ?_ ?_) (by decide)
    · exact ⟨⟨⟨⟨rfl, by decide⟩, rfl, trivial⟩, rfl, rfl, rfl⟩, rfl, show 3 ≤ 6 by decide⟩
    · exact ⟨trivial, rfl, by decide⟩

theorem writes_has (access : Access) (field : String) :
    Writes 2 (access.has field) (access.hasTree field) := by
  cases access with
  | source =>
    have hn : Writes 3 .null .null := ⟨trivial, rfl, by decide⟩
    exact Writes.binary (o := .ne) ((source.writes_read field).mono (by decide)) hn
  | docValues => exact (writes_has_docValues field).mono (by decide)

theorem writes_inclusion (h : Writes 2 a t) :
    Writes 2 (access.guardInclusion field a) (access.inclusionTree field t) := by
  cases access with
  | source => exact h
  | docValues =>
    have hb := Writes.binary (o := .and) ((writes_has_docValues field).mono (by decide)) h
    exact (hb.mono (by decide)).paren.mono (by decide)

theorem writes_exclusion (h : Writes 2 a t) :
    Writes 2 (access.guardExclusion field a) (access.exclusionTree field t) := by
  cases access with
  | source => exact h
  | docValues =>
    have hn := (writes_has_docValues field).not
    have hb := Writes.binary (o := .or) (hn.mono (by decide)) (h.mono (by decide))
    exact hb.paren.mono (by decide)

theorem writes_foldl_or {f g : Value → Expr} (h : ∀ v, Writes 1 (f v) (g v)) (rest : List Value)
    (ha : Writes 0 a t) :
    Writes 0 ((rest.map f).foldl (.binary .or) a) ((rest.map g).foldl (.binary .or) t) := by
  induction rest generalizing a t with
  | nil => exact ha
  | cons v rest ih => exact ih (Writes.binary (o := .or) ha (h v))

/-- A single comparison needs no parentheses, several have them. -/
theorem writes_compareAny (v : Value) (rest : List Value) :
    Writes 2 (access.compareAny field v rest)
      ((rest.map fun v => .binary .eq (access.fieldTree field) v.literal).foldl (.binary .or)
        (.binary .eq (access.fieldTree field) v.literal)) := by
  have hc := access.writes_compare field (o := .eq) rfl
  cases rest with
  | nil => exact hc v
  | cons w rest =>
    have hf := writes_foldl_or (fun v => (hc v).mono (by decide)) (w :: rest)
      ((hc v).mono (by decide))
    exact hf.paren.mono (by decide)

end Access

theorem Test.writes_tree {access : Access} {t : Test} {e : Expr} (h : t.toExpr access = .ok e) :
    Writes 2 e (t.tree access) := by
  rcases toExpr_cases h with ⟨v, ho, hv, rfl⟩ | ⟨v, ho, hv, rfl⟩ | ⟨v, rest, ho, hv, rfl⟩ |
    ⟨ho, hv, rfl⟩
  · simp only [tree, ho, hv]
    exact Access.writes_inclusion (access.writes_compare t.field rfl v)
  · simp only [tree, ho, hv]
    exact Access.writes_exclusion (access.writes_compare t.field rfl v)
  · simp only [tree, ho, hv]
    exact Access.writes_inclusion (Access.writes_compareAny v rest)
  · simp only [tree, ho, hv]
    exact access.writes_has t.field

theorem Condition.writes_tree {access : Access} {a : Condition} {e : Expr}
    (h : a.toExpr access = .ok e) : Writes 2 e (a.tree access) := by
  induction a generalizing e with
  | always =>
    cases h
    exact ⟨trivial, rfl, by decide⟩
  | test t => exact Test.writes_tree h
  | and a b iha ihb =>
    obtain ⟨x, y, hx, hy, rfl⟩ := toExpr_and_iff.mp h
    have hb := Writes.binary (o := .and) ((iha hx).mono (by decide)) ((ihb hy).mono (by decide))
    exact (hb.mono (by decide)).paren.mono (by decide)
  | or a b iha ihb =>
    obtain ⟨x, y, hx, hy, rfl⟩ := toExpr_or_iff.mp h
    have hb := Writes.binary (o := .or) ((iha hx).mono (by decide)) ((ihb hy).mono (by decide))
    exact (hb.mono (by decide)).paren.mono (by decide)
  | not a ih =>
    obtain ⟨x, hx, rfl⟩ := toExpr_not_iff.mp h
    exact ((ih hx).mono (by decide)).paren.not.mono (by decide)

/-- The text of a condition has one reading, which is the tree of the condition. -/
theorem Condition.reads_render_iff {access : Access} {a : Condition} {e : Expr}
    (h : (a.render access).value = .ok e) (t : Expr) : Reads e.text t ↔ t = a.tree access := by
  have hw := writes_tree h
  rw [Script.Expr.reads_text_iff hw.readable, hw.bare]

/-- Quotation marks and operators in a field or a value stay in their literals. -/
theorem Condition.reads_render_quotation :
    Reads "!(params['_source']['it\\'s'] == '\\' || true')"
      (.not (.binary .eq (.index (.index (.var "params") (.string "_source")) (.string "it's"))
        (.string "' || true"))) := by
  have h : ((not (.test (.equals "it's" (.string "' || true")))).render .source).value = .ok _ :=
    rfl
  exact (reads_render_iff h _).mpr rfl

end TallyRules
