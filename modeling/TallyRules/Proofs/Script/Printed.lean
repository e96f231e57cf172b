import TallyRules.Proofs.Script.Guards
import TallyRules.Proofs.Script.Program
import TallyRules.Proofs.Script.Recovery

/-! # Running printed scripts

Parentheses and the grouping of statements change nothing in what a script
leads to. So what is read in the text of a condition has the value of the
condition, and the scripts that are read in the texts of an aggregation do the
same as those that were printed.
-/

namespace TallyRules

open Script (Expr ReadsScript Stmt)

namespace Script

theorem Expr.eval_bare (e : Expr) (env : Env) : e.bare.eval env = e.eval env := by
  induction e with
  | index base key ihb ihk => rw [bare, eval, eval, ihb, ihk]
  | property base name ih => rw [bare, eval, eval, ih]
  | call base method ih => rw [bare, eval, eval, ih]
  | callWith base method argument ihb iha => rw [bare, eval, eval, ihb, iha]
  | not e ih => rw [bare, eval, eval, ih]
  | binary op a b iha ihb => rw [bare, eval, eval, iha, ihb]
  | asDouble e ih => rw [bare, eval, eval, ih]
  | paren e ih => rw [bare, eval, ih]
  | _ => rfl

/-- The text can be read, and whatever it is read as has the value in the scope. -/
def Evaluates (text : String) (env : Env) (v : Datum) : Prop :=
  (∃ e, Reads text e) ∧ ∀ e, Reads text e → e.eval env = some v

theorem Expr.evaluates_text_iff {e : Expr} (h : e.Readable) {env : Env} {v : Datum} :
    Evaluates e.text env v ↔ e.eval env = some v := by
  simp only [Evaluates, reads_text_iff h, exists_eq, true_and, forall_eq, eval_bare]

theorem Outcome.bind_assoc (o : Outcome) (f g : Env → Outcome) :
    (o.bind f).bind g = o.bind fun env => (f env).bind g := by
  cases o <;> rfl

theorem evalEntries_bare (entries : List (String × Expr)) (env : Env) :
    evalEntries env (entries.map Stmt.bareEntry) = evalEntries env entries := by
  simp only [evalEntries, List.foldlM_map, Stmt.bareEntry, Expr.eval_bare]

namespace Stmt

theorem exec_followedBy (a b : Stmt) (env : Env) :
    (a.followedBy b).exec env = (a.exec env).bind b.exec := by
  induction a generalizing env with
  | seq a c _ ih =>
    have hf : (c.followedBy b).exec = fun env => (c.exec env).bind b.exec := funext ih
    rw [followedBy, exec_seq, exec_seq, hf, Outcome.bind_assoc]
  | _ => exact exec_seq ..

theorem exec_bare {s : Stmt} (h : s.Readable) (env : Env) : s.bare.exec env = s.exec env := by
  induction s generalizing env with
  | assign target value => rw [bare, exec, exec, h.2.1, value.eval_bare]
  | add target value => rw [bare, exec, exec, h.2.1, value.eval_bare]
  | define n value => rw [bare, exec, exec, value.eval_bare]
  | when c body ih => rw [bare, exec, exec, c.eval_bare, ih h.2]
  | forEach n list body ih =>
    have hb : body.bare.exec = body.exec := funext (ih h.2.2.2)
    rw [bare, exec, exec, list.eval_bare, hb]
  | returnMap entries => rw [bare, exec, exec, evalEntries_bare]
  | seq a b iha ihb =>
    have hb : b.bare.exec = b.exec := funext (ihb h.2)
    rw [bare, exec_followedBy, exec_seq, iha h.1, hb]

theorem result?_bare {s : Stmt} (h : s.Readable) (env : Env) :
    s.bare.result? env = s.result? env := by
  rw [result?, result?, exec_bare h]

theorem update?_bare {s : Stmt} (h : s.Readable) (env : Env) (state : Datum) :
    s.bare.update? env state = s.update? env state := by
  rw [update?, update?, exec_bare h]

end Stmt

end Script

namespace Condition

open Script (Evaluates)

theorem evaluates_text (d : Document) {access : Access} {a : Condition} {e : Expr}
    (h : a.toExpr access = .ok e) : Evaluates e.text d.env (.bool (a.holds d.meets)) :=
  (Expr.evaluates_text_iff (writes_tree h).readable).mpr (eval_toExpr d.env_shows h)

/-- A condition that can be written, whatever the access, can be written for both. What is read in
the texts fails on no document, and it has the value of the condition. -/
theorem eval_render (d : Document) {access : Access} {a : Condition} {e : Expr}
    (h : (a.render access).value = .ok e) :
    ∃ x y, (a.render .docValues).value = .ok x ∧ (a.render .source).value = .ok y ∧
      Evaluates x.text d.env (.bool (a.holds d.meets)) ∧
      Evaluates y.text d.env (.bool (a.holds d.meets)) := by
  have hw := exists_toExpr_iff.mp ⟨e, h⟩
  obtain ⟨x, hx⟩ := exists_toExpr_iff.mpr hw
  obtain ⟨y, hy⟩ := exists_toExpr_iff.mpr hw
  exact ⟨x, y, hx, hy, evaluates_text d hx, evaluates_text d hy⟩

/-- A document without an owner has none that is a robot. -/
theorem eval_render_absent :
    ∃ x y, ((not (.test ⟨"owner", .exclude, [.string "robot"]⟩)).render .docValues).value = .ok x ∧
      ((not (.test ⟨"owner", .exclude, [.string "robot"]⟩)).render .source).value = .ok y ∧
      x.text = "!((!(doc.containsKey('owner') && doc['owner'].size() > 0) ||" ++
        " doc['owner'].value != 'robot'))" ∧
      y.text = "!(params['_source']['owner'] != 'robot')" ∧
      Evaluates x.text (Document.single "tier" (.number 1)).env (.bool false) ∧
      Evaluates y.text (Document.single "tier" (.number 1)).env (.bool false) := by
  have h : ((not (.test ⟨"owner", .exclude, [.string "robot"]⟩)).render .source).value = .ok _ :=
    rfl
  obtain ⟨x, y, hx, hy, ex, ey⟩ := eval_render (.single "tier" (.number 1)) h
  cases hx
  cases hy
  exact ⟨_, _, rfl, rfl, rfl, rfl, ex, ey⟩

end Condition

namespace Phases

def bare (phases : Phases) : Phases where
  init := phases.init.bare
  map := phases.map.bare
  combine := phases.combine.bare
  reduce := phases.reduce.bare

structure Readable (phases : Phases) : Prop where
  init : phases.init.Readable
  map : phases.map.Readable
  combine : phases.combine.Readable
  reduce : phases.reduce.Readable

variable {phases : Phases}

theorem runShard_bare (h : phases.Readable) (documents : List Document) :
    phases.bare.runShard documents = phases.runShard documents := by
  simp only [runShard, bare, Stmt.update?_bare h.init, Stmt.update?_bare h.map,
    Stmt.result?_bare h.combine]

theorem run_bare (h : phases.Readable) (shards : List (Option (List Document))) :
    phases.bare.run shards = phases.run shards := by
  have hs : phases.bare.runShard? = phases.runShard? := by
    funext shard
    cases shard with
    | none => rfl
    | some documents => exact runShard_bare h documents
  rw [run, run, hs]
  exact congrArg _ (funext fun states => Stmt.result?_bare h.reduce _)

end Phases

/-- The scripts that the texts of an aggregation are read as. -/
structure Aggregation.Reads (aggregation : Aggregation) (phases : Phases) : Prop where
  init : ReadsScript aggregation.init phases.init
  map : ReadsScript aggregation.map phases.map
  combine : ReadsScript aggregation.combine phases.combine
  reduce : ReadsScript aggregation.reduce phases.reduce

namespace ScriptConfig

theorem reads_aggregation_iff (config : ScriptConfig) {phases : Phases} (h : phases.Readable)
    (p : Phases) : (config.aggregation phases).Reads p ↔ p = phases.bare := by
  constructor
  · rintro ⟨hi, hm, hc, hr⟩
    obtain ⟨init, map, combine, reduce⟩ := p
    obtain rfl : init = _ := (Stmt.readsScript_text_iff h.init _).mp hi
    obtain rfl : map = _ := (Stmt.readsScript_text_iff h.map _).mp hm
    obtain rfl : combine = _ := (Stmt.readsScript_text_iff h.combine _).mp hc
    obtain rfl : reduce = _ := (Stmt.readsScript_text_iff h.reduce _).mp hr
    rfl
  · rintro rfl
    exact ⟨(Stmt.readsScript_text_iff h.init _).mpr rfl,
      (Stmt.readsScript_text_iff h.map _).mpr rfl,
      (Stmt.readsScript_text_iff h.combine _).mpr rfl,
      (Stmt.readsScript_text_iff h.reduce _).mpr rfl⟩

variable (config : ScriptConfig)

theorem readable_total (m : Metric) : (config.total m).Readable :=
  ⟨⟨rfl, by decide⟩, rfl, trivial⟩

theorem readable_zero (m : Metric) : (config.zero m).Readable := by
  unfold zero
  cases config.measure m with
  | count => trivial
  | sum field => exact rfl

theorem readable_accumulate (m : Metric) : (config.accumulate m).Readable := by
  unfold accumulate
  cases config.measure m with
  | count => exact ⟨config.readable_total m, rfl, trivial⟩
  | sum field =>
    exact ⟨(config.access.writes_has field).readable, config.readable_total m, rfl,
      (config.access.writes_read field).readable⟩

theorem readable_percentage : percentage.Readable := by
  have hn : (Expr.var "numerator").Readable := ⟨rfl, by decide⟩
  have hd : (Expr.var "denominator").Readable := ⟨rfl, by decide⟩
  have hm : (Expr.var "Math").Readable := ⟨rfl, by decide⟩
  have hu : (Binary64.ofNat 100).units?.isSome := by decide +kernel
  have hv : (Binary64.ofNat 10000).units?.isSome := by decide +kernel
  have hq : (Expr.binary .div (.asDouble (.var "numerator")) (.var "denominator")).Readable :=
    ⟨⟨hn, by decide⟩, by decide, hd, by decide⟩
  exact ⟨⟨hm, rfl, rfl, rfl, hq, by decide, hv, by decide⟩, by decide, hu, by decide⟩

theorem readable_addUp : config.addUp.Readable := by
  have hs (key : String) : (Expr.index (.var "s") (.string key)).Readable :=
    ⟨⟨rfl, by decide⟩, rfl, trivial⟩
  have hn : (Expr.var "numerator").Readable := ⟨rfl, by decide⟩
  have hd : (Expr.var "denominator").Readable := ⟨rfl, by decide⟩
  have hc : (Expr.binary .ne (.var "s") .null).Readable :=
    ⟨⟨rfl, by decide⟩, by decide, trivial, by decide⟩
  exact ⟨⟨rfl, by decide, config.readable_zero _⟩, ⟨rfl, by decide, config.readable_zero _⟩,
    rfl, by decide, ⟨rfl, by decide⟩, hc, ⟨hn, rfl, hs _⟩, hd, rfl, hs _⟩

theorem readable_reduceScript : config.reduceScript.Readable := by
  have hn : (Expr.var "numerator").Readable := ⟨rfl, by decide⟩
  have hd : (Expr.var "denominator").Readable := ⟨rfl, by decide⟩
  have hr : (Expr.var "ratio").Readable := ⟨rfl, by decide⟩
  unfold reduceScript
  cases config.ratioKey with
  | none =>
    refine ⟨config.readable_addUp, by simp, ?_⟩
    simp [hn, hd]
  | some ratioKey =>
    have hc : (Expr.binary .ne (.var "denominator") (.integer 0)).Readable :=
      ⟨hd, by decide, trivial, by decide⟩
    refine ⟨config.readable_addUp, ⟨rfl, by decide, trivial⟩,
      ⟨hc, hr, rfl, readable_percentage⟩, by simp, ?_⟩
    simp [hn, hd, hr]

theorem readable_phases {x y : Expr} (hx : x.Readable) (hy : y.Readable) :
    (config.phases x y).Readable where
  init := ⟨⟨config.readable_total _, rfl, config.readable_zero _⟩,
    config.readable_total _, rfl, config.readable_zero _⟩
  map := ⟨⟨hx, config.readable_accumulate _⟩, hy, config.readable_accumulate _⟩
  combine := by
    refine ⟨by simp, ?_⟩
    simp [readable_total]
  reduce := config.readable_reduceScript

end ScriptConfig

end TallyRules
