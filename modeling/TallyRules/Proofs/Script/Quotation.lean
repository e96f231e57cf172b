import TallyRules.Proofs.Script.Result

/-! # Texts between quotation marks

A text between quotation marks ends where it was meant to end: a script goes on
with the literal of a text exactly if it goes on with that text quoted, whatever
follows. So the literals of a condition are the fields and the texts of its
tests, besides the name of the source, and the scripts of an aggregation hold
the keys of its results and the fields that are summed up as well.
-/

namespace TallyRules

namespace Script

variable {cs s rest : List Char} {text : String}

theorem eq_of_scanString (h : scanString cs = some (s, rest)) :
    cs = s.flatMap escapeChar ++ '\'' :: rest := by
  fun_induction scanString cs generalizing s with
  | case1 => cases h
  | case2 cs =>
    cases h
    rfl
  | case3 cs ih | case4 cs ih =>
    obtain ⟨⟨t, r⟩, ht, he⟩ := Option.map_eq_some_iff.mp h
    cases he
    simp [ih ht, escapeChar]
  | case5 => cases h
  | case6 c cs hq _ _ hb ih =>
    obtain ⟨⟨t, r⟩, ht, he⟩ := Option.map_eq_some_iff.mp h
    cases he
    have hc : ¬ (c = '\\' ∨ c = '\'') := not_or.mpr ⟨hb, hq⟩
    simp [ih ht, escapeChar, hc]

theorem scanNumeral_ne_string : scanNumeral cs ≠ some (.string text, rest) := by
  unfold scanNumeral
  split
  · simp
  · simp
  · split <;> simp
  · simp

theorem exists_scanString_of_scanSign (h : scanSign cs = some (.string text, rest)) :
    ∃ tail, cs = '\'' :: tail ∧ scanString tail = some (text.toList, rest) := by
  unfold scanSign at h
  split at h
  · rename_i tail
    obtain ⟨⟨s, r⟩, hs, he⟩ := Option.map_eq_some_iff.mp h
    cases he
    exact ⟨tail, rfl, by rw [hs, String.toList_ofList]⟩
  -- the other signs are no quotation marks
  all_goals cases h

/-- A text is read between quotation marks if it is written as that text is quoted. -/
theorem scanToken_eq_string_iff :
    scanToken cs = some (.string text, rest) ↔ cs = (quoted text).toList ++ rest := by
  constructor
  · intro h
    cases cs with
    | nil => cases h
    | cons c cs =>
      simp only [scanToken] at h
      split at h
      · cases h
      · split at h
        · exact absurd h scanNumeral_ne_string
        · obtain ⟨tail, hc, ht⟩ := exists_scanString_of_scanSign h
          rw [hc, eq_of_scanString ht]
          simp [quoted, quotedChars]
  · rintro rfl
    exact scanToken_quoted text rest

theorem quoted_injective : Function.Injective quoted := by
  intro s t h
  have hs := scanToken_quoted s []
  rw [h, scanToken_quoted] at hs
  cases hs
  rfl

def Token.quotation? : Token → Option String
  | string s => some s
  | _ => none

/-- The texts that a script holds between quotation marks, in their order. -/
def Quotes (script : String) (texts : List String) : Prop :=
  ∃ ts, Lexes script.toList ts ∧ texts = ts.filterMap Token.quotation?

theorem Lexes.quotes_iff {script : String} {ts : List Token} {texts : List String}
    (h : Lexes script.toList ts) : Quotes script texts ↔ texts = ts.filterMap Token.quotation? := by
  constructor
  · rintro ⟨us, hu, rfl⟩
    rw [h.unique hu]
  · exact fun ht => ⟨ts, h, ht⟩

def Expr.quotations : Expr → List String
  | string s => [s]
  | index base key => base.quotations ++ key.quotations
  | property base _ => base.quotations
  | call base _ => base.quotations
  | callWith base _ argument => base.quotations ++ argument.quotations
  | not e => e.quotations
  | binary _ a b => a.quotations ++ b.quotations
  | asDouble e => e.quotations
  | paren e => e.quotations
  | _ => []

def Stmt.quotations : Stmt → List String
  | assign target value => target.quotations ++ value.quotations
  | add target value => target.quotations ++ value.quotations
  | define _ value => value.quotations
  | when c body => c.quotations ++ body.quotations
  | forEach _ list body => list.quotations ++ body.quotations
  | returnMap entries => entries.flatMap fun entry => entry.1 :: entry.2.quotations
  | seq a b => a.quotations ++ b.quotations

theorem Expr.filterMap_tokens (e : Expr) :
    e.tokens.filterMap Token.quotation? = e.quotations := by
  induction e with
  | _ => simp_all [tokens, quotations, List.filterMap_cons, Token.quotation?]

theorem Stmt.filterMap_entryTokens (entry : String × Expr) :
    (entryTokens entry).filterMap Token.quotation? = entry.1 :: entry.2.quotations := by
  simp [entryTokens, Expr.filterMap_tokens, List.filterMap_cons, Token.quotation?]

theorem Stmt.filterMap_entriesTokens (entries : List (String × Expr)) :
    (entriesTokens entries).filterMap Token.quotation? =
      entries.flatMap fun entry => entry.1 :: entry.2.quotations := by
  induction entries with
  | nil => rfl
  | cons entry entries ih =>
    cases entries with
    | nil => simp [entriesTokens, filterMap_entryTokens]
    | cons next entries =>
      rw [entriesTokens, List.filterMap_append, filterMap_entryTokens, List.flatMap_cons, ← ih]
      · rfl
      · simp

theorem Stmt.filterMap_tokens (s : Stmt) :
    s.tokens.filterMap Token.quotation? = s.quotations := by
  induction s with
  | _ =>
    simp_all [tokens, quotations, Expr.filterMap_tokens, filterMap_entriesTokens,
      List.filterMap_cons, Token.quotation?]

theorem Expr.quotes_text_iff {e : Expr} (h : e.Readable) {texts : List String} :
    Quotes e.text texts ↔ texts = e.quotations := by
  rw [(lexes_tokens h).quotes_iff, filterMap_tokens]

theorem Stmt.quotes_text_iff {s : Stmt} (h : s.Readable) {texts : List String} :
    Quotes s.text texts ↔ texts = s.quotations := by
  rw [(lexes_tokens h).quotes_iff, filterMap_tokens]

theorem Expr.quotations_foldl_or (a : Expr) (rest : List Expr) :
    (rest.foldl (binary .or) a).quotations = a.quotations ++ rest.flatMap quotations := by
  induction rest generalizing a with
  | nil => simp
  | cons b rest ih => simp [ih, quotations]

end Script

open Script (BinaryOp Expr Quotes Stmt)

def Value.quotations : Value → List String
  | string s => [s]
  | _ => []

namespace Access

def readQuotations (field : String) : Access → List String
  | source => ["_source", field]
  | docValues => [field]

def hasQuotations (field : String) : Access → List String
  | source => ["_source", field]
  | docValues => [field, field]

def guardQuotations (field : String) : Access → List String
  | source => []
  | docValues => [field, field]

end Access

/-- What is quoted to test a field: the field as often as it is asked for or read, and each value
that is a text after the reading that it is compared with. -/
def Test.quotations (access : Access) (t : Test) : List String :=
  if t.operator = .present then access.hasQuotations t.field
  else access.guardQuotations t.field ++
    t.values.flatMap fun v => access.readQuotations t.field ++ v.quotations

def Condition.quotations (access : Access) (a : Condition) : List String :=
  a.tests.flatMap (Test.quotations access)

theorem Value.quotations_toExpr (v : Value) : v.toExpr.quotations = v.quotations := by
  cases v with
  | float x =>
    cases x with
    | infinite negative => cases negative <;> rfl
    | _ => rfl
  | _ => rfl

namespace Access

variable (access : Access) (field : String)

theorem quotations_read : (access.read field).quotations = access.readQuotations field := by
  cases access <;> rfl

theorem quotations_has : (access.has field).quotations = access.hasQuotations field := by
  cases access <;> rfl

theorem quotations_compare (op : BinaryOp) (v : Value) :
    (access.compare field op v).quotations = access.readQuotations field ++ v.quotations := by
  rw [compare, Expr.quotations, quotations_read, Value.quotations_toExpr]

theorem quotations_compareAny (first : Value) (rest : List Value) :
    (access.compareAny field first rest).quotations =
      (first :: rest).flatMap fun v => access.readQuotations field ++ v.quotations := by
  cases rest with
  | nil => simp [compareAny, quotations_compare]
  | cons v rest =>
    simp [compareAny, Expr.quotations, Expr.quotations_foldl_or, List.flatMap_map,
      quotations_compare]

theorem quotations_guardInclusion (comparison : Expr) :
    (access.guardInclusion field comparison).quotations =
      access.guardQuotations field ++ comparison.quotations := by
  cases access <;> rfl

theorem quotations_guardExclusion (comparison : Expr) :
    (access.guardExclusion field comparison).quotations =
      access.guardQuotations field ++ comparison.quotations := by
  cases access <;> rfl

end Access

theorem Test.quotations_toExpr {access : Access} {t : Test} {e : Expr}
    (h : t.toExpr access = .ok e) : e.quotations = t.quotations access := by
  rcases toExpr_cases h with ⟨v, ho, hv, rfl⟩ | ⟨v, ho, hv, rfl⟩ | ⟨v, rest, ho, hv, rfl⟩ |
    ⟨ho, hv, rfl⟩
  · simp [quotations, ho, hv, Access.quotations_guardInclusion, Access.quotations_compare]
  · simp [quotations, ho, hv, Access.quotations_guardExclusion, Access.quotations_compare]
  · simp [quotations, ho, hv, Access.quotations_guardInclusion, Access.quotations_compareAny]
  · simp [quotations, ho, Access.quotations_has]

theorem Condition.quotations_toExpr {access : Access} {a : Condition} {e : Expr}
    (h : a.toExpr access = .ok e) : e.quotations = a.quotations access := by
  induction a generalizing e with
  | always =>
    cases h
    rfl
  | test t => simpa [quotations, tests] using Test.quotations_toExpr h
  | and a b iha ihb =>
    obtain ⟨x, y, hx, hy, rfl⟩ := toExpr_and_iff.mp h
    simp [Expr.quotations, iha hx, ihb hy, quotations, tests]
  | or a b iha ihb =>
    obtain ⟨x, y, hx, hy, rfl⟩ := toExpr_or_iff.mp h
    simp [Expr.quotations, iha hx, ihb hy, quotations, tests]
  | not a ih =>
    obtain ⟨x, hx, rfl⟩ := toExpr_not_iff.mp h
    simp [Expr.quotations, ih hx, quotations, tests]

theorem Condition.quotes_render_iff {access : Access} {a : Condition} {e : Expr}
    (h : (a.render access).value = .ok e) {texts : List String} :
    Quotes e.text texts ↔ texts = a.quotations access := by
  rw [Expr.quotes_text_iff (writes_tree h).readable, quotations_toExpr h]

namespace ScriptConfig

/-- What is quoted to add a document to the total of a metric. -/
def accumulateQuotations (config : ScriptConfig) (metric : Metric) : List String :=
  match config.measure metric with
  | .count => [config.key metric]
  | .sum field =>
    config.access.hasQuotations field ++ config.key metric :: config.access.readQuotations field

variable (config : ScriptConfig)

theorem quotations_zero (metric : Metric) : (config.zero metric).quotations = [] := by
  unfold zero
  cases config.measure metric <;> rfl

theorem quotations_accumulate (metric : Metric) :
    (config.accumulate metric).quotations = config.accumulateQuotations metric := by
  unfold accumulate accumulateQuotations
  cases config.measure metric with
  | count => rfl
  | sum field =>
    simp [Stmt.quotations, Access.quotations_has, Access.quotations_read, total, Expr.quotations]

theorem quotations_initScript :
    config.initScript.quotations = [config.numeratorKey, config.denominatorKey] := by
  simp [initScript, Stmt.quotations, quotations_zero, total, key, Expr.quotations]

theorem quotations_addUp :
    config.addUp.quotations = [config.numeratorKey, config.denominatorKey] := by
  simp [addUp, Stmt.quotations, quotations_zero, Expr.quotations]

theorem quotations_reduceScript : config.reduceScript.quotations =
    [config.numeratorKey, config.denominatorKey] ++ config.keys := by
  have hp : percentage.quotations = [] := rfl
  unfold reduceScript keys
  cases config.ratioKey with
  | none => simp [Stmt.quotations, quotations_addUp, Expr.quotations]
  | some ratioKey => simp [Stmt.quotations, quotations_addUp, Expr.quotations, hp]

end ScriptConfig

namespace Script

/-- A script goes on with the literal of a text if it goes on with the text quoted, and what follows
is left. So no two texts are quoted alike, and no field, value or key ends its literal early: the
literals of a condition are those of its tests, and the scripts of an aggregation add the keys of
the results and the fields that are summed up. -/
theorem quoted_delimits :
    (∀ (cs : List Char) (text : String) (rest : List Char),
      scanToken cs = some (.string text, rest) ↔ cs = (quoted text).toList ++ rest) ∧
    Function.Injective quoted ∧
    (∀ (access : Access) (a : Condition) (e : Expr), (a.render access).value = .ok e →
      ∀ texts, Quotes e.text texts ↔ texts = a.quotations access) ∧
    ∀ (config : ScriptConfig) (resolved : Resolved) (aggregation : Aggregation),
      (config.emit resolved).value = .ok aggregation → ∀ texts,
        (Quotes aggregation.init texts ↔ texts = [config.numeratorKey, config.denominatorKey]) ∧
        (Quotes aggregation.map texts ↔
          texts = resolved.numerator.quotations config.access ++
            config.accumulateQuotations .numerator ++
            (resolved.denominator.quotations config.access ++
              config.accumulateQuotations .denominator)) ∧
        (Quotes aggregation.combine texts ↔
          texts = [config.numeratorKey, config.numeratorKey, config.denominatorKey,
            config.denominatorKey]) ∧
        (Quotes aggregation.reduce texts ↔
          texts = [config.numeratorKey, config.denominatorKey] ++ config.keys) := by
  refine ⟨fun _ _ _ => scanToken_eq_string_iff, quoted_injective,
    fun _ _ _ h _ => Condition.quotes_render_iff h, fun config resolved aggregation h texts => ?_⟩
  obtain ⟨-, x, y, hx, hy, rfl⟩ := ScriptConfig.emit_eq_ok_iff.mp h
  have hr := config.readable_phases (Condition.writes_tree hx).readable
    (Condition.writes_tree hy).readable
  refine ⟨?_, ?_, ?_, ?_⟩
  · rw [← config.quotations_initScript]
    exact Stmt.quotes_text_iff hr.init
  · rw [← Condition.quotations_toExpr hx, ← Condition.quotations_toExpr hy,
      ← config.quotations_accumulate, ← config.quotations_accumulate]
    exact Stmt.quotes_text_iff hr.map
  · exact Stmt.quotes_text_iff hr.combine
  · rw [← config.quotations_reduceScript]
    exact Stmt.quotes_text_iff hr.reduce

/-- Quotation marks, backslashes and brackets in a field, a value and the keys. -/
theorem quoted_delimits_marks :
    ∃ aggregation, (ScriptConfig.emit ⟨.source, "it's", "\\", .count, .sum "']", none⟩
        ⟨.test (.equals "a\\'b" (.string "' || true")), .always, []⟩).value = .ok aggregation ∧
      Quotes "params['_source']['a\\\\\\'b'] == '\\' || true'" ["_source", "a\\'b", "' || true"] ∧
      Quotes aggregation.init ["it's", "\\"] ∧
      Quotes aggregation.map
        ["_source", "a\\'b", "' || true", "it's", "_source", "']", "\\", "_source", "']"] ∧
      Quotes aggregation.combine ["it's", "it's", "\\", "\\"] ∧
      Quotes aggregation.reduce ["it's", "\\", "it's", "\\"] := by
  obtain ⟨-, -, hcondition, hscripts⟩ := quoted_delimits
  have ha : (Condition.render .source (.test (.equals "a\\'b" (.string "' || true")))).value =
      .ok _ := rfl
  have h : (ScriptConfig.emit ⟨.source, "it's", "\\", .count, .sum "']", none⟩
      ⟨.test (.equals "a\\'b" (.string "' || true")), .always, []⟩).value = .ok _ := rfl
  exact ⟨_, h, (hcondition _ _ _ ha _).mpr rfl, (hscripts _ _ _ h _).1.mpr rfl,
    (hscripts _ _ _ h _).2.1.mpr rfl, (hscripts _ _ _ h _).2.2.1.mpr rfl,
    (hscripts _ _ _ h _).2.2.2.mpr rfl⟩

end Script

end TallyRules
