import TallyRules.Proofs.Condition.Truth
import TallyRules.Proofs.Script.Execution
import TallyRules.Proofs.Script.Rendering

/-! # Conditions evaluated on documents

Indexed values are only read behind a test for the field, and a field that the
source lacks is null. Hence the expression of a condition has the value of the
condition on every document, wherever the fields are read.
-/

namespace TallyRules

open Script (BinaryOp Datum Env Expr)

namespace Document

def hasOneOf (d : Document) (field : String) (values : List Value) : Bool :=
  (d.value? field).any fun x => values.any fun v => x.equal v.toScalar

/-- Whether a document meets a test. An unfilter is met by none. -/
def meets (d : Document) (t : Test) : Bool :=
  match t.operator with
  | .filter => d.hasOneOf t.field t.values
  | .contain => d.hasOneOf t.field t.values
  | .exclude => !d.hasOneOf t.field t.values
  | .present => (d.value? t.field).isSome
  | .unfilter => false

end Document

structure Script.Env.Shows (env : Env) (d : Document) : Prop where
  doc : env "doc" = some (.indexed d)
  params : env "params" = some (.map [("_source", .source d)])
  double : env "Double" = some (.type "Double")

theorem Document.env_shows (d : Document) : d.env.Shows d :=
  ⟨rfl, rfl, rfl⟩

namespace Script

variable {env : Env} {d : Document} {field : String}

theorem Env.Shows.eval_value (h : env.Shows d) (v : Value) :
    v.toExpr.eval env = some (.scalar v.toScalar) := by
  cases v with
  | int n => rfl
  | bool b => rfl
  | string s => rfl
  | float x =>
    cases x with
    | finite => rfl
    | nan => simp [Value.toExpr, Expr.eval, h.double, Datum.property?, Value.toScalar,
        Binary64.toScalar]
    | infinite negative =>
      cases negative <;> simp [Value.toExpr, Expr.eval, h.double, Datum.property?, Value.toScalar,
        Binary64.toScalar]

theorem Env.Shows.eval_source_read (h : env.Shows d) :
    (Access.source.read field).eval env = some (.ofOption (d.value? field)) := by
  simp [Access.read, Expr.eval, h.params, Datum.lookup?]

theorem Env.Shows.eval_docValues_read (h : env.Shows d) {x : Scalar}
    (hx : d.value? field = some x) :
    (Access.docValues.read field).eval env = some (.scalar x) := by
  have hi : d.indexes field = true := d.indexes_of_value field (by simp [hx])
  simp [Access.read, Expr.eval, h.doc, Datum.lookup?, Datum.property?, hi, hx]

theorem Env.Shows.eval_read (h : env.Shows d) {x : Scalar} (hx : d.value? field = some x)
    (access : Access) : (access.read field).eval env = some (.scalar x) := by
  cases access with
  | source => rw [h.eval_source_read, hx, Datum.ofOption]
  | docValues => exact h.eval_docValues_read hx

/-- The test for a field never fails. -/
theorem Env.Shows.eval_has (h : env.Shows d) (field : String) (access : Access) :
    (access.has field).eval env = some (.bool (d.value? field).isSome) := by
  cases access with
  | source =>
    cases hv : d.value? field <;>
      simp [Access.has, Expr.eval, h.eval_source_read, hv, Datum.ofOption, BinaryOp.decided?,
        BinaryOp.apply?, Datum.equal?]
  | docValues =>
    cases hi : d.indexes field with
    | false =>
      have hv : d.value? field = none := by
        by_contra hn
        have := d.indexes_of_value field (Option.isSome_iff_ne_none.mpr hn)
        simp [hi] at this
      simp [Access.has, Expr.eval, h.doc, Datum.callWith?, BinaryOp.decided?, hi, hv]
    | true =>
      cases hv : d.value? field <;>
        simp [Access.has, Expr.eval, h.doc, Datum.callWith?, Datum.lookup?, Datum.call?,
          BinaryOp.decided?, BinaryOp.apply?, Datum.asBool?, Datum.asNumber?, hi, hv]

theorem Env.Shows.eval_compare (h : env.Shows d) {x : Scalar} (hx : d.value? field = some x)
    (access : Access) (v : Value) :
    (access.compare field .eq v).eval env = some (.bool (x.equal v.toScalar)) ∧
      (access.compare field .ne v).eval env = some (.bool (!x.equal v.toScalar)) := by
  simp [Access.compare, Expr.eval, h.eval_read hx, h.eval_value, BinaryOp.decided?,
    BinaryOp.apply?, Datum.equal?]

theorem Env.Shows.eval_source_compare (h : env.Shows d) (hx : d.value? field = none) (v : Value) :
    (Access.source.compare field .eq v).eval env = some (.bool false) ∧
      (Access.source.compare field .ne v).eval env = some (.bool true) := by
  simp [Access.compare, Expr.eval, h.eval_source_read, h.eval_value, hx, Datum.ofOption,
    BinaryOp.decided?, BinaryOp.apply?, Datum.equal?]

theorem eval_or_of_bool {a b : Expr} {p q : Bool} (ha : a.eval env = some (.bool p))
    (hb : b.eval env = some (.bool q)) :
    (Expr.binary .or a b).eval env = some (.bool (p || q)) := by
  cases p <;> simp [Expr.eval, ha, hb, BinaryOp.decided?, BinaryOp.apply?, Datum.asBool?]

theorem eval_and_of_bool {a b : Expr} {p q : Bool} (ha : a.eval env = some (.bool p))
    (hb : b.eval env = some (.bool q)) :
    (Expr.binary .and a b).eval env = some (.bool (p && q)) := by
  cases p <;> simp [Expr.eval, ha, hb, BinaryOp.decided?, BinaryOp.apply?, Datum.asBool?]

theorem eval_not_of_bool {a : Expr} {p : Bool} (ha : a.eval env = some (.bool p)) :
    (Expr.not a).eval env = some (.bool !p) := by
  simp [Expr.eval, ha, Datum.asBool?]

theorem eval_foldl_or {f : Value → Expr} {p : Value → Bool}
    (hf : ∀ v, (f v).eval env = some (.bool (p v))) (rest : List Value) {a : Expr} {q : Bool}
    (ha : a.eval env = some (.bool q)) :
    ((rest.map f).foldl (.binary .or) a).eval env = some (.bool (q || rest.any p)) := by
  induction rest generalizing a q with
  | nil => simpa using ha
  | cons v rest ih =>
    rw [List.map_cons, List.foldl_cons, ih (eval_or_of_bool ha (hf v)), List.any_cons,
      Bool.or_assoc]

theorem eval_compareAny {access : Access} {p : Value → Bool}
    (hp : ∀ v, (access.compare field .eq v).eval env = some (.bool (p v)))
    (first : Value) (rest : List Value) :
    (access.compareAny field first rest).eval env = some (.bool ((first :: rest).any p)) := by
  cases rest with
  | nil => simpa [Access.compareAny] using hp first
  | cons v rest =>
    exact eval_foldl_or hp (v :: rest) (hp first)

/-- The guard of an inclusion makes it false for documents without the field. -/
theorem Env.Shows.eval_guardInclusion (h : env.Shows d) {access : Access} {a : Expr}
    {p : Scalar → Bool}
    (hp : ∀ x, d.value? field = some x → a.eval env = some (.bool (p x)))
    (hn : access = .source → d.value? field = none → a.eval env = some (.bool false)) :
    (access.guardInclusion field a).eval env = some (.bool ((d.value? field).any p)) := by
  have hhas := h.eval_has field access
  cases hx : d.value? field with
  | none =>
    cases access with
    | source => exact hn rfl hx
    | docValues =>
      rw [Access.guardInclusion, Expr.eval, Expr.eval, hhas, hx]
      rfl
  | some x =>
    cases access with
    | source => exact hp x hx
    | docValues =>
      rw [Access.guardInclusion, Expr.eval, eval_and_of_bool hhas (hp x hx), hx]
      rfl

theorem Env.Shows.eval_guardExclusion (h : env.Shows d) {access : Access} {a : Expr}
    {p : Scalar → Bool}
    (hp : ∀ x, d.value? field = some x → a.eval env = some (.bool !p x))
    (hn : access = .source → d.value? field = none → a.eval env = some (.bool true)) :
    (access.guardExclusion field a).eval env = some (.bool !(d.value? field).any p) := by
  have hhas := eval_not_of_bool (h.eval_has field .docValues)
  cases hx : d.value? field with
  | none =>
    cases access with
    | source => exact hn rfl hx
    | docValues =>
      rw [Access.guardExclusion, Expr.eval, Expr.eval, hhas, hx]
      rfl
  | some x =>
    cases access with
    | source => exact hp x hx
    | docValues =>
      rw [Access.guardExclusion, Expr.eval, eval_or_of_bool hhas (hp x hx), hx]
      rfl

end Script

open Script

variable {env : Env} {d : Document}

theorem Test.eval_toExpr (h : env.Shows d) {access : Access} {t : Test} {e : Expr}
    (he : t.toExpr access = .ok e) : e.eval env = some (.bool (d.meets t)) := by
  rcases toExpr_cases he with ⟨v, ho, hv, rfl⟩ | ⟨v, ho, hv, rfl⟩ | ⟨first, rest, ho, hv, rfl⟩ |
    ⟨ho, hv, rfl⟩
  · rw [h.eval_guardInclusion (fun x hx => (h.eval_compare hx access v).1)
      (fun ha hx => ha ▸ (h.eval_source_compare hx v).1)]
    simp [Document.meets, Document.hasOneOf, ho, hv]
  · rw [h.eval_guardExclusion (fun x hx => (h.eval_compare hx access v).2)
      (fun ha hx => ha ▸ (h.eval_source_compare hx v).2)]
    simp [Document.meets, Document.hasOneOf, ho, hv]
  · rw [h.eval_guardInclusion
      (fun x hx => eval_compareAny (fun v => (h.eval_compare hx access v).1) first rest)
      (fun ha hx => by
        rw [eval_compareAny (p := fun _ => false)
          (fun v => ha ▸ (h.eval_source_compare hx v).1)]
        simp)]
    simp [Document.meets, Document.hasOneOf, ho, hv]
  · rw [h.eval_has]
    simp [Document.meets, ho]

theorem Condition.eval_toExpr (h : env.Shows d) {access : Access} {a : Condition} {e : Expr}
    (he : a.toExpr access = .ok e) : e.eval env = some (.bool (a.holds d.meets)) := by
  induction a generalizing e with
  | always =>
    cases he
    rfl
  | test t => exact Test.eval_toExpr h he
  | and a b iha ihb =>
    obtain ⟨x, y, hx, hy, rfl⟩ := toExpr_and_iff.mp he
    exact eval_and_of_bool (iha hx) (ihb hy)
  | or a b iha ihb =>
    obtain ⟨x, y, hx, hy, rfl⟩ := toExpr_or_iff.mp he
    exact eval_or_of_bool (iha hx) (ihb hy)
  | not a ih =>
    obtain ⟨x, hx, rfl⟩ := toExpr_not_iff.mp he
    have hi := ih hx
    exact eval_not_of_bool (a := .paren x) hi

def Document.single (field : String) (x : Scalar) : Document where
  value? f := if f = field then some x else none
  indexes f := f = field
  indexes_of_value f h := by
    by_cases hf : f = field <;> simp_all

end TallyRules
