import TallyRules.Proofs.Script.Evaluation
import TallyRules.Script.Phases

/-! # Execution of scripts

A statement changes the variables in scope, returns a value, or fails. On each
shard the first script runs once, the second for each document and the third
once, and the state passes from one run to the next. The last script runs on
what the shards hand over.
-/

namespace TallyRules

namespace Script

inductive Outcome
  | next (env : Env)
  | returned (v : Datum)
  | failed

namespace Outcome

def bind (o : Outcome) (f : Env → Outcome) : Outcome :=
  match o with
  | next env => f env
  | returned v => returned v
  | failed => failed

@[simp]
theorem bind_next (env : Env) (f : Env → Outcome) : (next env).bind f = f env := rfl

def ofOption : Option Env → Outcome
  | some env => next env
  | none => failed

end Outcome

namespace Datum

def put (key : String) (v : Datum) : List (String × Datum) → List (String × Datum)
  | [] => [(key, v)]
  | (k, w) :: entries => if k = key then (k, v) :: entries else (k, w) :: put key v entries

theorem lookup_cons (k k' : String) (w : Datum) (entries : List (String × Datum)) :
    ((k', w) :: entries).lookup k = if k = k' then some w else entries.lookup k := by
  by_cases h : k = k'
  · simp [h]
  · have hb : (k == k') = false := beq_eq_false_iff_ne.mpr h
    simp [List.lookup_cons, h, hb]

theorem lookup_put (key k : String) (v : Datum) (entries : List (String × Datum)) :
    (put key v entries).lookup k = if k = key then some v else entries.lookup k := by
  induction entries with
  | nil => exact lookup_cons ..
  | cons entry entries ih =>
    obtain ⟨k', w⟩ := entry
    by_cases he : k' = key
    · subst he
      simp only [put, if_pos, lookup_cons]
      split <;> rfl
    · simp only [put, if_neg he, lookup_cons, ih]
      by_cases hk : k = k'
      · subst hk
        simp [he]
      · simp [hk]

end Datum

/-- The variables after an expression is assigned a value. Only variables and entries of maps can
be assigned. -/
def Expr.store? (env : Env) (v : Datum) : Expr → Option Env
  | var n => if (env n).isSome then some (env.set n v) else none
  | index (var n) key => do
    match ← env n, ← key.eval env with
    | .map entries, .string k => some (env.set n (.map (Datum.put k v entries)))
    | _, _ => none
  | _ => none

def evalEntries (env : Env) (entries : List (String × Expr)) : Option (List (String × Datum)) :=
  entries.foldlM (fun es entry => return Datum.put entry.1 (← entry.2.eval env) es) []

def Stmt.exec : Stmt → Env → Outcome
  | assign target value, env => .ofOption (do target.store? env (← value.eval env))
  | add target value, env => .ofOption (do
    let a ← (← target.eval env).asNumber?
    let b ← (← value.eval env).asNumber?
    target.store? env (.number (a + b)))
  | define n value, env => .ofOption (do return env.set n (← value.eval env))
  | when condition body, env =>
    match (condition.eval env).bind Datum.asBool? with
    | some true => body.exec env
    | some false => .next env
    | none => .failed
  | forEach n list body, env =>
    match list.eval env with
    | some (.list items) =>
      items.foldl (fun o item => o.bind fun env => body.exec (env.set n item)) (.next env)
    | _ => .failed
  | returnMap entries, env =>
    match evalEntries env entries with
    | some es => .returned (.map es)
    | none => .failed
  | seq a b, env => (a.exec env).bind b.exec

namespace Stmt

theorem exec_add_var {env : Env} {n : String} {value : Expr} {a b : ℚ}
    (ha : env n = some (.number a)) (hb : value.eval env = some (.number b)) :
    (add (.var n) value).exec env = .next (env.set n (.number (a + b))) := by
  simp [exec, Expr.eval, Expr.store?, ha, hb, Datum.asNumber?, Outcome.ofOption]

theorem exec_define {env : Env} {n : String} {value : Expr} {v : Datum}
    (h : value.eval env = some v) : (define n value).exec env = .next (env.set n v) := by
  simp [exec, h, Outcome.ofOption]

theorem exec_when {env : Env} {condition : Expr} {body : Stmt} {b : Bool}
    (h : condition.eval env = some (.bool b)) :
    (when condition body).exec env = if b then body.exec env else .next env := by
  cases b <;> simp [exec, h, Datum.asBool?]

theorem exec_seq (a b : Stmt) (env : Env) : (seq a b).exec env = (a.exec env).bind b.exec := by
  rw [exec]

def result? (s : Stmt) (env : Env) : Option Datum :=
  match s.exec env with
  | .returned v => some v
  | _ => none

/-- The state after a script that may change it. -/
def update? (s : Stmt) (env : Env) (state : Datum) : Option Datum :=
  match s.exec (env.set "state" state) with
  | .next env => env "state"
  | _ => none

end Stmt

end Script

open Script (Datum Env)

/-- The variables under which scripts find a document. -/
def Document.env (d : Document) : Env :=
  (Env.types.set "doc" (.indexed d)).set "params" (.map [("_source", .source d)])

namespace Phases

def runShard (phases : Phases) (documents : List Document) : Option Datum := do
  let start ← phases.init.update? Env.types (.map [])
  let state ← documents.foldlM (fun state d => phases.map.update? d.env state) start
  phases.combine.result? (Env.types.set "state" state)

/-- What a shard hands over, which may be nothing. -/
def runShard? (phases : Phases) : Option (List Document) → Option Datum
  | some documents => phases.runShard documents
  | none => some .null

def run (phases : Phases) (shards : List (Option (List Document))) : Option Datum := do
  let states ← shards.mapM phases.runShard?
  phases.reduce.result? (Env.types.set "states" (.list states))

end Phases

end TallyRules
