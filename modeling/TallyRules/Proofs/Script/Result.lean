import Mathlib.Tactic.NormNum
import TallyRules.Proofs.Script.Printed
import TallyRules.Proofs.Script.Totals

/-! # The result of an aggregation

The last script adds up what the shards hand over, and a shard that hands over
nothing adds nothing. So the totals are those over all documents, however they
are spread over the shards. The percentage is worked out from the totals, unless
there is nothing to divide by.
-/

namespace TallyRules

open Script (BinaryOp Datum Env Expr Stmt Outcome)

namespace Binary64

theorem toScalar_ofNat_hundred : (ofNat 100).toScalar = .number 100 := by
  have h : ofNat 100 = finite false (100 * Nat.pow 2 46) 1028 (by decide) := by decide +kernel
  rw [h]
  exact toScalar_finite (by decide +kernel)

theorem toScalar_ofNat_tenThousand : (ofNat 10000).toScalar = .number 10000 := by
  have h : ofNat 10000 = finite false (10000 * Nat.pow 2 39) 1035 (by decide) := by decide +kernel
  rw [h]
  exact toScalar_finite (by decide +kernel)

end Binary64

/-- The percentage of a number in another, rounded down to two decimals. -/
def percentageOf (a b : ℚ) : ℚ :=
  ⌊a / b * 10000⌋ / 100

/-- The ratio of two totals, null if there is nothing to divide by. -/
def ratio (a b : ℚ) : Datum :=
  if b = 0 then .null else .number (percentageOf a b)

namespace ScriptConfig

variable {config : ScriptConfig} {env : Env} {t u : Metric → ℚ} {v : Datum}

structure Sums (t : Metric → ℚ) (env : Env) : Prop where
  numerator : env "numerator" = some (.number (t .numerator))
  denominator : env "denominator" = some (.number (t .denominator))
  math : env "Math" = some (.type "Math")

/-- What a shard hands over: nothing, or its totals. -/
def Hands (config : ScriptConfig) (t : Metric → ℚ) (v : Datum) : Prop :=
  v = .null ∧ t = 0 ∨ config.Holds t v

def addShard (config : ScriptConfig) : Stmt :=
  .when (.binary .ne (.var "s") .null)
    (.seq (.add (.var "numerator") (.index (.var "s") (.string config.numeratorKey)))
      (.add (.var "denominator") (.index (.var "s") (.string config.denominatorKey))))

theorem exec_addShard (hs : Sums t env) (hv : config.Hands u v) :
    ∃ env', config.addShard.exec (env.set "s" v) = .next env' ∧ Sums (t + u) env' := by
  rcases hv with ⟨rfl, rfl⟩ | ⟨entries, rfl, he⟩
  · refine ⟨env.set "s" .null, ?_, ?_⟩
    · rw [addShard, Stmt.exec_when (b := false)]
      · rfl
      · simp [Expr.eval, BinaryOp.decided?, BinaryOp.apply?, Datum.equal?]
    · rw [add_zero]
      exact ⟨hs.numerator, hs.denominator, hs.math⟩
  · have hn : entries.lookup config.numeratorKey = some (.number (u .numerator)) := he .numerator
    have hd : entries.lookup config.denominatorKey = some (.number (u .denominator)) :=
      he .denominator
    let env₁ := (env.set "s" (.map entries)).set "numerator"
      (.number (t .numerator + u .numerator))
    refine ⟨env₁.set "denominator" (.number (t .denominator + u .denominator)), ?_, ?_⟩
    · rw [addShard, Stmt.exec_when (b := true), if_pos rfl, Stmt.exec_seq,
        Stmt.exec_add_var (a := t .numerator) (b := u .numerator), Outcome.bind_next]
      · apply Stmt.exec_add_var
        · simp [Env.set_of_ne, hs.denominator]
        · simp [Env.set_of_ne, Expr.eval, Datum.lookup?, hd]
      · simp [Env.set_of_ne, hs.numerator]
      · simp [Expr.eval, Datum.lookup?, hn]
      · simp [Expr.eval, BinaryOp.decided?, BinaryOp.apply?, Datum.equal?]
    · exact ⟨by simp [env₁, Env.set_of_ne], by simp, by simp [env₁, Env.set_of_ne, hs.math]⟩

theorem exec_forEach_addShard {values : List Datum} {us : List (Metric → ℚ)}
    (hv : List.Forall₂ config.Hands us values) (hs : Sums t env) :
    ∃ env', values.foldl (fun o v => Outcome.bind o fun env => config.addShard.exec (env.set "s" v))
        (Outcome.next env) = Outcome.next env' ∧ Sums (t + us.sum) env' := by
  induction hv generalizing t env with
  | nil => exact ⟨env, rfl, by simpa using hs⟩
  | cons hu _ ih =>
    obtain ⟨env₁, he₁, hs₁⟩ := exec_addShard hs hu
    obtain ⟨env₂, he₂, hs₂⟩ := ih hs₁
    refine ⟨env₂, ?_, ?_⟩
    · rw [List.foldl_cons, Outcome.bind_next, he₁, he₂]
    · rwa [List.sum_cons, ← add_assoc]

theorem exec_addUp {values : List Datum} {us : List (Metric → ℚ)}
    (hv : List.Forall₂ config.Hands us values) :
    ∃ env, config.addUp.exec (Env.types.set "states" (.list values)) = .next env ∧
      Sums us.sum env := by
  let env₀ := ((Env.types.set "states" (.list values)).set "numerator" (.number 0)).set
    "denominator" (.number 0)
  have hs : Sums 0 env₀ :=
    ⟨by simp [env₀, Env.set_of_ne], by simp [env₀], by simp [env₀, Env.set_of_ne, Env.types]⟩
  obtain ⟨env, he, hs'⟩ := exec_forEach_addShard hv hs
  refine ⟨env, ?_, by rwa [zero_add] at hs'⟩
  have hl : env₀ "states" = some (.list values) := by simp [env₀, Env.set_of_ne]
  have hf : (Stmt.forEach "s" (.var "states") config.addShard).exec env₀ = .next env := by
    rw [Stmt.exec, Expr.eval, hl]
    exact he
  have ha : config.addUp = .seq (.define "numerator" (config.zero .numerator))
      (.seq (.define "denominator" (config.zero .denominator))
        (.forEach "s" (.var "states") config.addShard)) := rfl
  rw [ha, Stmt.exec_seq, Stmt.exec_define (eval_zero ..), Outcome.bind_next, Stmt.exec_seq,
    Stmt.exec_define (eval_zero ..), Outcome.bind_next]
  exact hf

theorem eval_percentage (hs : Sums t env) (h : t .denominator ≠ 0) :
    percentage.eval env = some (.number (percentageOf (t .numerator) (t .denominator))) := by
  simp [percentage, Expr.eval, BinaryOp.decided?, BinaryOp.apply?, Datum.asNumber?,
    Datum.callWith?, hs.numerator, hs.denominator, hs.math, h,
    Binary64.toScalar_ofNat_hundred, Binary64.toScalar_ofNat_tenThousand, percentageOf]

theorem Sums.set_ratio (hs : Sums t env) (v : Datum) : Sums t (env.set "ratio" v) :=
  ⟨hs.numerator, hs.denominator, hs.math⟩

/-- Working out the ratio, which stays null if there is nothing to divide by. -/
theorem exec_ratio (hs : Sums t env) (next : Stmt) :
    (Stmt.seq (.define "ratio" .null)
        (.seq (.when (.binary .ne (.var "denominator") (.integer 0))
          (.assign (.var "ratio") percentage)) next)).exec env =
      next.exec (env.set "ratio" (ratio (t .numerator) (t .denominator))) := by
  have hs' := hs.set_ratio .null
  have hc : (Expr.binary .ne (.var "denominator") (.integer 0)).eval (env.set "ratio" .null) =
      some (.bool !(Scalar.number (t .denominator)).equal (.number 0)) := by
    simp [Expr.eval, hs'.denominator, BinaryOp.decided?, BinaryOp.apply?, Datum.equal?]
  rw [Stmt.exec_seq, Stmt.exec_define (v := .null) rfl, Outcome.bind_next, Stmt.exec_seq,
    Stmt.exec_when hc, ratio]
  by_cases h : t .denominator = 0
  · simp [h, Scalar.equal]
  · simp [h, Scalar.equal, Stmt.exec, eval_percentage hs' h, Expr.store?, Outcome.ofOption,
      Env.set_set]

/-- The last script returns the sums of what the shards hand over, and their ratio. -/
theorem result?_reduceScript (hk : config.keys.Nodup) {values : List Datum}
    {us : List (Metric → ℚ)} (hv : List.Forall₂ config.Hands us values) :
    ∃ entries, config.reduceScript.result? (Env.types.set "states" (.list values)) =
        some (.map entries) ∧ entries.map Prod.fst = config.keys ∧
      (∀ m, entries.lookup (config.key m) = some (.number (us.sum m))) ∧
      ∀ k ∈ config.ratioKey,
        entries.lookup k = some (ratio (us.sum .numerator) (us.sum .denominator)) := by
  obtain ⟨env, he, hs⟩ := exec_addUp hv
  cases hr : config.ratioKey with
  | none =>
    have hne : config.numeratorKey ≠ config.denominatorKey := by
      simpa [keys, hr] using hk
    refine ⟨[(config.numeratorKey, .number (us.sum .numerator)),
      (config.denominatorKey, .number (us.sum .denominator))], ?_, ?_, ?_, ?_⟩
    · rw [Stmt.result?, reduceScript, hr]
      simp [he, Stmt.exec, Script.evalEntries, Expr.eval, hs.numerator,
        hs.denominator, Datum.put, hne]
    · simp [keys, hr]
    · rintro (_ | _) <;> simp [key, Datum.lookup_cons, hne.symm]
    · simp
  | some ratioKey =>
    have hne : config.numeratorKey ≠ config.denominatorKey ∧ config.numeratorKey ≠ ratioKey ∧
        config.denominatorKey ≠ ratioKey := by
      simpa [keys, hr, and_assoc] using hk
    obtain ⟨hnd, hnr, hdr⟩ := hne
    have hs' := hs.set_ratio (ratio (us.sum .numerator) (us.sum .denominator))
    refine ⟨[(config.numeratorKey, .number (us.sum .numerator)),
      (config.denominatorKey, .number (us.sum .denominator)),
      (ratioKey, ratio (us.sum .numerator) (us.sum .denominator))], ?_, ?_, ?_, ?_⟩
    · rw [Stmt.result?, reduceScript, hr]
      dsimp only
      rw [Stmt.exec_seq, he, Outcome.bind_next, exec_ratio hs]
      simp [Stmt.exec, Script.evalEntries, Expr.eval, hs'.numerator, hs'.denominator, Datum.put,
        hnd, hnr, hdr]
    · simp [keys, hr]
    · rintro (_ | _) <;> simp [key, Datum.lookup_cons, hnd.symm]
    · simp [Datum.lookup_cons, hnr.symm, hdr.symm]

variable {resolved : Resolved} {x y : Expr}

/-- What the documents of a shard contribute. A shard that hands over nothing has none. -/
def shardTotal (config : ScriptConfig) (resolved : Resolved) (shard : Option (List Document))
    (m : Metric) : ℚ :=
  ((shard.getD []).map (config.contribution resolved · m)).sum

theorem sum_shardTotal (shards : List (Option (List Document))) (m : Metric) :
    (shards.map (config.shardTotal resolved)).sum m =
      (shards.reduceOption.flatten.map (config.contribution resolved · m)).sum := by
  induction shards with
  | nil => rfl
  | cons shard shards ih =>
    rw [List.map_cons, List.sum_cons, Pi.add_apply, ih]
    cases shard with
    | none => simp [shardTotal]
    | some documents => simp [shardTotal]

theorem hands_runShards (hk : config.keys.Nodup)
    (hx : resolved.numerator.toExpr config.access = .ok x)
    (hy : resolved.denominator.toExpr config.access = .ok y)
    {shards : List (Option (List Document))}
    (ha : ∀ d ∈ shards.reduceOption.flatten, ∀ m, (config.measure m).Applies d) :
    ∃ values, shards.mapM (config.phases x y).runShard? = some values ∧
      List.Forall₂ config.Hands (shards.map (config.shardTotal resolved)) values := by
  induction shards with
  | nil => exact ⟨[], rfl, .nil⟩
  | cons shard shards ih =>
    cases shard with
    | none =>
      obtain ⟨values, he, hv⟩ := ih (by simpa using ha)
      refine ⟨.null :: values, ?_, .cons (.inl ⟨rfl, ?_⟩) hv⟩
      · simp [Phases.runShard?, he]
      · funext m
        simp [shardTotal]
    | some documents =>
      rw [List.reduceOption_cons_of_some, List.flatten_cons, List.forall_mem_append] at ha
      obtain ⟨v, hr, hv⟩ := runShard_phases hk hx hy ha.1
      obtain ⟨values, he, hvs⟩ := ih ha.2
      refine ⟨v :: values, ?_, .cons (.inr hv) hvs⟩
      simp [Phases.runShard?, hr, he]

theorem emit_value (config : ScriptConfig) (resolved : Resolved) :
    (config.emit resolved).value =
      (config.phases? resolved.numerator resolved.denominator).map config.aggregation := by
  rw [emit, phases?]
  cases config.checkKeys with
  | error e => rfl
  | ok =>
    cases hx : resolved.numerator.toExpr config.access with
    | error e => simp [Condition.render, hx]; rfl
    | ok x =>
      cases hy : resolved.denominator.toExpr config.access with
      | error e => simp [Condition.render, hx, hy]; rfl
      | ok y => simp [Condition.render, hx, hy]; rfl

theorem phases?_eq_ok_iff {a b : Condition} {phases : Phases} :
    config.phases? a b = .ok phases ↔ config.checkKeys = .ok () ∧ ∃ x y,
      a.toExpr config.access = .ok x ∧ b.toExpr config.access = .ok y ∧
        phases = config.phases x y := by
  simp only [phases?, bind_eq_ok_iff]
  constructor
  · rintro ⟨⟨⟩, hk, x, hx, y, hy, h⟩
    cases h
    exact ⟨hk, x, y, hx, hy, rfl⟩
  · rintro ⟨hk, x, y, hx, hy, rfl⟩
    exact ⟨(), hk, x, hx, y, hy, rfl⟩

theorem emit_eq_ok_iff {aggregation : Aggregation} :
    (config.emit resolved).value = .ok aggregation ↔ config.checkKeys = .ok () ∧ ∃ x y,
      resolved.numerator.toExpr config.access = .ok x ∧
        resolved.denominator.toExpr config.access = .ok y ∧
          aggregation = config.aggregation (config.phases x y) := by
  rw [emit_value]
  cases hp : config.phases? resolved.numerator resolved.denominator with
  | error e =>
    simp only [Except.map, reduceCtorEq, false_iff]
    rintro ⟨hc, x, y, hx, hy, -⟩
    rw [phases?_eq_ok_iff.mpr ⟨hc, x, y, hx, hy, rfl⟩] at hp
    cases hp
  | ok phases =>
    obtain ⟨hc, x, y, hx, hy, rfl⟩ := phases?_eq_ok_iff.mp hp
    simp [Except.map, hc, hx, hy, eq_comm]

/-- The result of the scripts in the texts for documents that are spread over shards in any way,
of which some hand over nothing: the total of each metric over the documents that meet its
condition, and the ratio of the totals if it is wanted. -/
theorem run_emit {aggregation : Aggregation} (h : (config.emit resolved).value = .ok aggregation)
    {documents : List Document} {shards : List (Option (List Document))}
    (hd : shards.reduceOption.flatten.Perm documents)
    (ha : ∀ d ∈ documents, ∀ m, (config.measure m).Applies d) :
    ∃ phases entries, (∀ p, aggregation.Reads p ↔ p = phases) ∧
      phases.run shards = some (.map entries) ∧ entries.map Prod.fst = config.keys ∧
      (∀ m, entries.lookup (config.key m) = some (.number
        ((config.measure m).total
          (documents.filter fun d => (resolved.condition m).holds d.meets)))) ∧
      ∀ k ∈ config.ratioKey, entries.lookup k = some (ratio
        (config.numeratorMeasure.total
          (documents.filter fun d => resolved.numerator.holds d.meets))
        (config.denominatorMeasure.total
          (documents.filter fun d => resolved.denominator.holds d.meets))) := by
  rw [emit_value] at h
  cases hp : config.phases? resolved.numerator resolved.denominator with
  | error e => simp [hp, Except.map] at h
  | ok phases =>
    rw [hp] at h
    cases h
    obtain ⟨hc, x, y, hx, hy, rfl⟩ := phases?_eq_ok_iff.mp hp
    have hw := config.readable_phases (Condition.writes_tree hx).readable
      (Condition.writes_tree hy).readable
    have hk := nodup_keys_of_checkKeys hc
    obtain ⟨values, he, hv⟩ := hands_runShards hk hx hy
      (fun d hm => ha d (hd.mem_iff.mp hm))
    obtain ⟨entries, hr, hks, hl, hq⟩ := result?_reduceScript hk hv
    have ht : ∀ m, (shards.map (config.shardTotal resolved)).sum m =
        (config.measure m).total
          (documents.filter fun d => (resolved.condition m).holds d.meets) := by
      intro m
      rw [sum_shardTotal, (hd.map _).sum_eq, Measure.total_filter]
      rfl
    simp only [ht] at hl hq
    refine ⟨_, entries, config.reads_aggregation_iff hw, ?_, hks, hl, hq⟩
    rw [Phases.run_bare hw]
    simp [Phases.run, he]
    exact hr

/-- Three documents, of which one has no price, and a shard without a state. -/
theorem run_emit_null_shard :
    ∃ aggregation phases entries,
      (emit ⟨.docValues, "it's", "denominator", .sum "price", .count, some "share"⟩
        ⟨.test ⟨"price", .present, []⟩, .always, []⟩).value = .ok aggregation ∧
      aggregation.Reads phases ∧
      phases.run [some [.single "price" (.number 3)], none,
        some [.single "price" (.number (5 / 2)), .single "tier" (.bool true)]] =
        some (.map entries) ∧
      entries.lookup "it's" = some (.number (11 / 2)) ∧
      entries.lookup "denominator" = some (.number 3) ∧
      entries.lookup "share" = some (.number (18333 / 100)) := by
  let config : ScriptConfig :=
    ⟨.docValues, "it's", "denominator", .sum "price", .count, some "share"⟩
  let priced : Condition := .test ⟨"price", .present, []⟩
  let documents : List Document := [.single "price" (.number 3), .single "price" (.number (5 / 2)),
    .single "tier" (.bool true)]
  have h : (config.emit ⟨priced, .always, []⟩).value = .ok _ := rfl
  have ha : ∀ d ∈ documents, ∀ m, (config.measure m).Applies d := by
    rintro d hd (_ | _)
    · simp only [documents, List.mem_cons, List.not_mem_nil, or_false] at hd
      rcases hd with rfl | rfl | rfl <;>
        simp [config, measure, Measure.Applies, Document.single]
    · trivial
  have hs : (List.reduceOption [some [.single "price" (.number 3)], none,
      some [.single "price" (.number (5 / 2)), .single "tier" (.bool true)]]).flatten.Perm
      documents := .refl _
  obtain ⟨phases, entries, hp, hr, -, hm, hq⟩ := run_emit h hs ha
  have hn : (Measure.sum "price").total (documents.filter fun d => priced.holds d.meets) =
      11 / 2 := by
    decide +kernel
  have hd : Measure.count.total (documents.filter fun d => Condition.always.holds d.meets) = 3 :=
    rfl
  have hr' : ratio (11 / 2) 3 = .number (18333 / 100) := by
    rw [ratio, if_neg (by decide), show percentageOf (11 / 2) 3 = 18333 / 100 by decide +kernel]
  refine ⟨_, phases, entries, h, (hp phases).mpr rfl, hr, ?_, ?_, ?_⟩
  · rw [← hn]
    exact hm .numerator
  · rw [← hd]
    exact hm .denominator
  · rw [← hr', ← hn, ← hd]
    exact hq "share" rfl

end ScriptConfig

end TallyRules
