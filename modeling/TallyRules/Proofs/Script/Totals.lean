import Mathlib.Algebra.BigOperators.Group.List.Basic
import Mathlib.Data.List.ReduceOption
import Mathlib.Tactic.Ring
import TallyRules.Proofs.Script.Guards

/-! # The totals of an aggregation

Each run of the second script adds to the total of a metric what the document
counts for, and the last script adds up the totals of the shards. So the result
does not depend on how the documents are spread over shards. The keys of the
results must be distinct, since they are also the keys of the state.
-/

namespace TallyRules

open Script (Datum Env Expr Stmt Outcome)

def Document.number? (d : Document) (field : String) : Option ℚ :=
  match d.value? field with
  | some (.number q) => some q
  | _ => none

namespace Measure

def total (measure : Measure) (documents : List Document) : ℚ :=
  match measure with
  | count => documents.length
  | sum field => (documents.filterMap (·.number? field)).sum

/-- The document has a number, if anything, where the measure looks for one. -/
def Applies (measure : Measure) (d : Document) : Prop :=
  match measure with
  | count => True
  | sum field => ∀ x, d.value? field = some x → ∃ q, x = .number q

def amount (measure : Measure) (d : Document) : ℚ :=
  match measure with
  | count => 1
  | sum field => (d.number? field).getD 0

theorem total_filter (measure : Measure) (p : Document → Bool) (documents : List Document) :
    measure.total (documents.filter p) =
      (documents.map fun d => if p d then measure.amount d else 0).sum := by
  induction documents with
  | nil => cases measure <;> simp [total]
  | cons d documents ih =>
    rw [List.map_cons, List.sum_cons, ← ih]
    cases hp : p d with
    | false => simp [hp]
    | true =>
      rw [List.filter_cons_of_pos hp]
      cases measure with
      | count => simp [total, amount, add_comm]
      | sum field => cases hn : d.number? field <;> simp [total, amount, hn]

end Measure

namespace Binary64

theorem toScalar_finite {m p n : ℕ} {h : Canonical m p}
    (hn : m * Nat.pow 2 p = n * unitsPerOne) :
    (finite false m p h).toScalar = .number n := by
  have hpos : (unitsPerOne : ℚ) ≠ 0 := Nat.cast_ne_zero.mpr (by decide +kernel)
  simp only [toScalar, hn, Nat.cast_mul, mul_div_cancel_right₀ _ hpos, Bool.false_eq_true, if_false]

theorem toScalar_zero : (zero false).toScalar = .number 0 := by
  have hz : 0 * Nat.pow 2 0 = 0 * unitsPerOne := by rw [Nat.zero_mul, Nat.zero_mul]
  rw [zero, toScalar_finite hz, Nat.cast_zero]

end Binary64

namespace Script

theorem Env.set_eq_self {env : Env} {n : String} {v : Datum} (h : env n = some v) :
    env.set n v = env := by
  funext m
  by_cases hm : m = n
  · rw [hm, set_self, h]
  · exact set_of_ne env v hm

theorem Env.set_set (env : Env) (n : String) (v w : Datum) :
    (env.set n v).set n w = env.set n w := by
  funext m
  by_cases hm : m = n <;> simp [set, hm]

theorem Env.Shows.set_state {env : Env} {d : Document} (h : env.Shows d) (v : Datum) :
    (env.set "state" v).Shows d :=
  ⟨h.doc, h.params, h.double⟩

end Script

def Resolved.condition (resolved : Resolved) : Metric → Condition
  | .numerator => resolved.numerator
  | .denominator => resolved.denominator

namespace ScriptConfig

variable {config : ScriptConfig} {env : Env} {d : Document} {t : Metric → ℚ} {v : Datum}

theorem firstRepeated?_eq_none_iff {seen keys : List String} :
    firstRepeated? seen keys = none ↔ keys.Nodup ∧ ∀ key ∈ keys, key ∉ seen := by
  induction keys generalizing seen with
  | nil => simp [firstRepeated?]
  | cons key keys ih =>
    rw [firstRepeated?]
    split
    · rename_i h
      simp [h]
    · rename_i h
      rw [ih]
      simp only [List.nodup_cons, List.mem_cons, List.mem_append, List.not_mem_nil, or_false]
      constructor
      · rintro ⟨hn, hk⟩
        refine ⟨⟨fun hm => hk key hm (Or.inr rfl), hn⟩, ?_⟩
        rintro k (rfl | hm)
        · exact h
        · exact fun hs => hk k hm (Or.inl hs)
      · rintro ⟨⟨hm, hn⟩, hk⟩
        refine ⟨hn, fun k hk' => ?_⟩
        rintro (hs | rfl)
        · exact hk k (Or.inr hk') hs
        · exact hm hk'

theorem nodup_keys_of_checkKeys (h : config.checkKeys = .ok ()) : config.keys.Nodup := by
  unfold checkKeys at h
  split at h
  · cases h
  · rename_i hk
    exact (firstRepeated?_eq_none_iff.mp hk).1

theorem key_inj (h : config.keys.Nodup) {m n : Metric} :
    config.key m = config.key n ↔ m = n := by
  have hne : config.numeratorKey ≠ config.denominatorKey := by
    simp only [keys, List.cons_append, List.nodup_cons, List.mem_cons, not_or] at h
    exact h.1.1
  cases m <;> cases n <;> simp [key, hne, hne.symm]

/-- The value is a map with a total for each metric. -/
def Holds (config : ScriptConfig) (t : Metric → ℚ) (v : Datum) : Prop :=
  ∃ entries, v = .map entries ∧
    ∀ m, entries.lookup (config.key m) = some (.number (t m))

theorem eval_total (hs : env "state" = some v) (hv : config.Holds t v) (m : Metric) :
    (config.total m).eval env = some (.number (t m)) := by
  obtain ⟨entries, rfl, he⟩ := hv
  simp [total, Expr.eval, hs, Datum.lookup?, he m]

/-- Adding to the total of a metric leaves the other total as it is. -/
theorem exec_add_total (hk : config.keys.Nodup) (hs : env "state" = some v)
    (hv : config.Holds t v) (m : Metric) {value : Expr} {q : ℚ}
    (hq : value.eval env = some (.number q)) :
    ∃ v', (Stmt.add (config.total m) value).exec env = .next (env.set "state" v') ∧
      config.Holds (fun m' => t m' + if m' = m then q else 0) v' := by
  have ht := eval_total hs hv m
  obtain ⟨entries, rfl, he⟩ := hv
  refine ⟨.map (Datum.put (config.key m) (.number (t m + q)) entries), ?_, _, rfl, fun m' => ?_⟩
  · simp [Stmt.exec, ht, hq, Datum.asNumber?]
    simp [total, Expr.store?, Expr.eval, hs, Outcome.ofOption]
  · simp only [Datum.lookup_put, key_inj hk, he m']
    by_cases h : m' = m
    · simp [h]
    · simp [h]

theorem exec_accumulate (hk : config.keys.Nodup) (h : env.Shows d) (hs : env "state" = some v)
    (hv : config.Holds t v) (m : Metric) (ha : (config.measure m).Applies d) :
    ∃ v', (config.accumulate m).exec env = .next (env.set "state" v') ∧
      config.Holds (fun m' => t m' + if m' = m then (config.measure m).amount d else 0) v' := by
  unfold accumulate
  cases hm : config.measure m with
  | count => exact exec_add_total hk hs hv m (by simp [Expr.eval, Measure.amount])
  | sum field =>
    rw [hm] at ha
    have hhas := h.eval_has field config.access
    cases hx : d.value? field with
    | none =>
      refine ⟨v, ?_, ?_⟩
      · simp [Stmt.exec, hhas, hx, Datum.asBool?, Env.set_eq_self hs]
      · simpa [Measure.amount, Document.number?, hx] using hv
    | some x =>
      obtain ⟨q, rfl⟩ := ha x hx
      obtain ⟨v', he, hv'⟩ := exec_add_total hk hs hv m (h.eval_read hx config.access)
      refine ⟨v', ?_, ?_⟩
      · simp [Stmt.exec, hhas, hx, Datum.asBool?]
        simpa [Stmt.exec] using he
      · simpa [Measure.amount, Document.number?, hx] using hv'

def contribution (config : ScriptConfig) (resolved : Resolved) (d : Document) (m : Metric) : ℚ :=
  if (resolved.condition m).holds d.meets then (config.measure m).amount d else 0

variable {resolved : Resolved} {x y : Expr}

theorem exec_when_accumulate (hk : config.keys.Nodup) (h : env.Shows d)
    (hs : env "state" = some v) (hv : config.Holds t v) (m : Metric)
    (ha : (config.measure m).Applies d) {e : Expr}
    (he : (resolved.condition m).toExpr config.access = .ok e) :
    ∃ v', (Stmt.when e (config.accumulate m)).exec env = .next (env.set "state" v') ∧
      config.Holds (fun m' => t m' + if m' = m then config.contribution resolved d m else 0)
        v' := by
  have hb := Condition.eval_toExpr h he
  cases hc : (resolved.condition m).holds d.meets with
  | false =>
    refine ⟨v, ?_, ?_⟩
    · simp [Stmt.exec, hb, hc, Datum.asBool?, Env.set_eq_self hs]
    · simpa [contribution, hc] using hv
  | true =>
    obtain ⟨v', hx, hv'⟩ := exec_accumulate hk h hs hv m ha
    refine ⟨v', ?_, ?_⟩
    · simpa [Stmt.exec, hb, hc, Datum.asBool?] using hx
    · simpa [contribution, hc] using hv'

theorem update?_mapScript (hk : config.keys.Nodup)
    (hx : resolved.numerator.toExpr config.access = .ok x)
    (hy : resolved.denominator.toExpr config.access = .ok y)
    (ha : ∀ m, (config.measure m).Applies d) (hv : config.Holds t v) :
    ∃ v', (config.mapScript x y).update? d.env v = some v' ∧
      config.Holds (fun m => t m + config.contribution resolved d m) v' := by
  have h₁ := d.env_shows.set_state v
  obtain ⟨v₁, he₁, hv₁⟩ := exec_when_accumulate hk h₁ (Env.set_self ..) hv .numerator
    (ha .numerator) hx
  have h₂ := h₁.set_state v₁
  obtain ⟨v₂, he₂, hv₂⟩ := exec_when_accumulate hk h₂ (Env.set_self ..) hv₁ .denominator
    (ha .denominator) hy
  refine ⟨v₂, ?_, ?_⟩
  · rw [Stmt.update?, mapScript, Stmt.exec, he₁, Outcome.bind_next, he₂]
    exact Env.set_self ..
  · convert hv₂ using 2 with m
    cases m <;> simp

theorem foldlM_update?_mapScript (hk : config.keys.Nodup)
    (hx : resolved.numerator.toExpr config.access = .ok x)
    (hy : resolved.denominator.toExpr config.access = .ok y) {documents : List Document}
    (ha : ∀ d ∈ documents, ∀ m, (config.measure m).Applies d) (hv : config.Holds t v) :
    ∃ v', documents.foldlM (fun state d => (config.mapScript x y).update? d.env state) v =
        some v' ∧
      config.Holds (fun m => t m + (documents.map (config.contribution resolved · m)).sum) v' := by
  induction documents generalizing t v with
  | nil => exact ⟨v, rfl, by simpa using hv⟩
  | cons d documents ih =>
    obtain ⟨hd, ha⟩ := List.forall_mem_cons.mp ha
    obtain ⟨v₁, he₁, hv₁⟩ := update?_mapScript hk hx hy hd hv
    obtain ⟨v₂, he₂, hv₂⟩ := ih ha hv₁
    refine ⟨v₂, ?_, ?_⟩
    · rw [List.foldlM_cons, he₁]
      exact he₂
    · simpa [add_assoc] using hv₂

theorem eval_zero (config : ScriptConfig) (env : Env) (m : Metric) :
    (config.zero m).eval env = some (.number 0) := by
  unfold zero
  cases config.measure m with
  | count => simp [Expr.eval]
  | sum field => rw [Expr.eval, Binary64.toScalar_zero]

theorem update?_initScript (hk : config.keys.Nodup) :
    ∃ v, config.initScript.update? Env.types (.map []) = some v ∧
      config.Holds (fun _ => 0) v := by
  refine ⟨.map (Datum.put config.denominatorKey (.number 0)
    (Datum.put config.numeratorKey (.number 0) [])), ?_, _, rfl, fun m => ?_⟩
  · simp [initScript, Stmt.update?, Stmt.exec, eval_zero, total, Expr.store?, Expr.eval,
      Outcome.ofOption, key]
  · have hne := key_inj hk (m := .numerator) (n := .denominator)
    cases m <;> simp_all [Datum.lookup_put, key]

theorem result?_combineScript (hk : config.keys.Nodup) (hs : env "state" = some v)
    (hv : config.Holds t v) :
    ∃ v', config.combineScript.result? env = some v' ∧ config.Holds t v' := by
  have hn := eval_total hs hv .numerator
  have hd := eval_total hs hv .denominator
  refine ⟨.map (Datum.put config.denominatorKey (.number (t .denominator))
    (Datum.put config.numeratorKey (.number (t .numerator)) [])), ?_, _, rfl, fun m => ?_⟩
  · simp [combineScript, Stmt.result?, Stmt.exec, Script.evalEntries, hn, hd]
  · have hne := key_inj hk (m := .numerator) (n := .denominator)
    cases m <;> simp_all [Datum.lookup_put, key]

theorem runShard_phases (hk : config.keys.Nodup)
    (hx : resolved.numerator.toExpr config.access = .ok x)
    (hy : resolved.denominator.toExpr config.access = .ok y) {documents : List Document}
    (ha : ∀ d ∈ documents, ∀ m, (config.measure m).Applies d) :
    ∃ v, (config.phases x y).runShard documents = some v ∧
      config.Holds (fun m => (documents.map (config.contribution resolved · m)).sum) v := by
  obtain ⟨v₀, he₀, hv₀⟩ := update?_initScript hk
  obtain ⟨v₁, he₁, hv₁⟩ := foldlM_update?_mapScript hk hx hy ha hv₀
  obtain ⟨v₂, he₂, hv₂⟩ := result?_combineScript hk
    (Env.set_self Env.types "state" v₁) hv₁
  refine ⟨v₂, ?_, by simpa using hv₂⟩
  simp [Phases.runShard, phases, he₀, he₁, he₂]

end ScriptConfig

end TallyRules
