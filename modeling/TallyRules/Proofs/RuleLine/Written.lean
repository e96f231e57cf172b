import Mathlib.Data.List.Forall2
import TallyRules.Proofs.RuleLine.Reading
import TallyRules.Proofs.Text.Lines
import TallyRules.Rule

/-! # Rules written as lines

A rule is written as a line with its column and its values between quotes. If
the texts in it can be quoted, the line states the rule, and it is one line of
any text that it is part of.
-/

namespace TallyRules

open RuleLine Text

/-- What stands for a value between quotes. -/
def Value.unquoted : Value → String
  | string s => s
  | value => value.text

/-- The text can stand between quotes in a line, and is not trimmed when it is read. -/
structure Quotable (s : String) : Prop where
  not_blank : isBlank s = false
  trim_eq : trim s = s
  noFeed : '\n' ∉ s.toList
  noClosing : '\u201d' ∉ s.toList

instance (s : String) : Decidable (Quotable s) :=
  decidable_of_iff
    ((isBlank s = false ∧ trim s = s) ∧ '\n' ∉ s.toList ∧ '\u201d' ∉ s.toList)
    ⟨fun ⟨⟨hb, ht⟩, hf, hc⟩ => ⟨hb, ht, hf, hc⟩, fun ⟨hb, ht, hf, hc⟩ => ⟨⟨hb, ht⟩, hf, hc⟩⟩

def Value.Quotable : Value → Prop
  | string s => TallyRules.Quotable s
  | _ => False

instance : (value : Value) → Decidable value.Quotable
  | .string s => inferInstanceAs (Decidable (Quotable s))
  | .int _ => inferInstanceAs (Decidable False)
  | .float _ => inferInstanceAs (Decidable False)
  | .bool _ => inferInstanceAs (Decidable False)

theorem Value.Quotable.eq_string {value : Value} (h : value.Quotable) :
    value = .string value.unquoted ∧ TallyRules.Quotable value.unquoted := by
  cases value with
  | string s => exact ⟨rfl, h⟩
  | int n => exact h.elim
  | float x => exact h.elim
  | bool b => exact h.elim

namespace Rule

def writeColumn (field : String) : String :=
  " column " ++ inQuotes field

def line (rule : Rule) : String :=
  let column := writeColumn rule.field
  match rule.constraint with
  | .filter value => "Filter" ++ column ++ " = " ++ inQuotes value.unquoted
  | .exclude value => "Exclude" ++ column ++ " = " ++ inQuotes value.unquoted
  | .unfilter => "Unfilter" ++ column
  | .contain values =>
    "Filter" ++ column ++ " in " ++ ", ".intercalate (values.map (inQuotes ·.unquoted))
  | .present => "Filter" ++ column ++ " exists"

def ruleLine (rule : Rule) : RuleLine :=
  match rule.constraint with
  | .filter value => ⟨.filter, rule.field, some .equals, [value.unquoted]⟩
  | .exclude value => ⟨.exclude, rule.field, some .equals, [value.unquoted]⟩
  | .unfilter => ⟨.unfilter, rule.field, none, []⟩
  | .contain values => ⟨.filter, rule.field, some .contains, values.map Value.unquoted⟩
  | .present => ⟨.filter, rule.field, some .present, []⟩

/-- A line can state the rule. -/
structure Writable (rule : Rule) : Prop where
  field : Quotable rule.field
  values : ∀ value ∈ rule.constraint.values, value.Quotable
  contains : rule.constraint ≠ .contain []

instance (rule : Rule) : Decidable rule.Writable :=
  decidable_of_iff
    (Quotable rule.field ∧ (∀ value ∈ rule.constraint.values, value.Quotable) ∧
      rule.constraint ≠ .contain [])
    ⟨fun ⟨hf, hv, hc⟩ => ⟨hf, hv, hc⟩, fun ⟨hf, hv, hc⟩ => ⟨hf, hv, hc⟩⟩

end Rule

namespace RuleLine

variable {cs rest : List Char} {field : String}

theorem space_refl (cs : List Char) : Space cs cs :=
  ⟨[], rfl, by simp⟩

theorem space_cons (cs : List Char) : Space (' ' :: cs) cs :=
  ⟨[' '], rfl, fun _ hc => List.mem_singleton.mp hc ▸ rfl⟩

def Spelt (text : String) : Prop :=
  text.toList ≠ [] ∧ text.toList.all isWordChar = true

instance (text : String) : Decidable (Spelt text) :=
  inferInstanceAs (Decidable (_ ∧ _))

theorem Spelt.word {text : String} (h : Spelt text) (hr : ∀ c ∈ rest.head?, isWordChar c = false) :
    Word (text.toList ++ rest) (Text.lower text) rest :=
  ⟨text.toList, rfl, h.1, List.all_eq_true.mp h.2, hr, by rw [String.ofList_toList]⟩

theorem head?_space (cs : List Char) : ∀ c ∈ (' ' :: cs).head?, isWordChar c = false := by
  rintro _ ⟨⟩
  decide

theorem subject_quoted {column content : String} (text : String) (keyword : Keyword)
    (hw : Spelt text) (hk : (Text.lower text, keyword) ∈ keywords)
    (hq : Quoted column.toList content []) (hb : isBlank content = false) (rest : List Char) :
    Subject (text.toList ++ ((" column " ++ column).toList ++ rest)) keyword (trim content)
      rest := by
  have htext : (" column " ++ column).toList ++ rest =
      ' ' :: ("column".toList ++ ' ' :: (column.toList ++ rest)) := by
    simp
  have hcolumn : Spelt "column" := by decide
  rw [htext]
  exact Subject.mk (.plain (space_refl _) (hw.word (head?_space _)) hk)
    (.column (space_cons _) (hcolumn.word (head?_space _))) (space_cons _) (hq.append rest) hb

theorem subject_writeColumn (text : String) (keyword : Keyword) (hw : Spelt text)
    (hk : (Text.lower text, keyword) ∈ keywords) (hf : Quotable field) (rest : List Char) :
    Subject (text.toList ++ ((Rule.writeColumn field).toList ++ rest)) keyword field rest := by
  have hs := subject_quoted text keyword hw hk (quoted_inQuotes hf.noClosing) hf.not_blank rest
  rwa [hf.trim_eq] at hs

theorem values_intercalate {written contents : List String} (hne : written ≠ [])
    (h : List.Forall₂ (fun w s => Quoted w.toList s []) written contents) :
    Values (' ' :: (", ".intercalate written).toList) contents [] := by
  induction h with
  | nil => exact absurd rfl hne
  | cons hq h ih =>
    cases h with
    | nil => exact .last (space_cons _) (by simpa using hq)
    | cons hq' h' =>
      rw [String.intercalate_cons_cons, String.toList_append, String.toList_append,
        List.append_assoc]
      exact .more (space_cons _) (hq.append _) (.comma (space_refl _)) (ih (List.cons_ne_nil _ _))

theorem forall₂_inQuotes {texts : List String} (h : ∀ s ∈ texts, '\u201d' ∉ s.toList) :
    List.Forall₂ (fun w s => Quoted w.toList s []) (texts.map inQuotes) texts := by
  rw [List.forall₂_map_left_iff, List.forall₂_same]
  exact fun s hs => quoted_inQuotes (h s hs)

section Lines

theorem derives_compared {column content sign : String} {written contents : List String}
    {comparator : Comparator} (text : String) (keyword : Keyword) (hw : Spelt text)
    (hk : (Text.lower text, keyword) ∈ keywords) (hq : Quoted column.toList content [])
    (hb : isBlank content = false)
    (hc : ∀ rest, Compares (sign.toList ++ ' ' :: rest) comparator (' ' :: rest))
    (hp : comparator ≠ .present) (hne : written ≠ [])
    (hv : List.Forall₂ (fun w s => Quoted w.toList s []) written contents) :
    Derives
      (text ++ " column " ++ column ++ " " ++ sign ++ " " ++ ", ".intercalate written).toList
      ⟨keyword, trim content, some comparator, contents⟩ := by
  have hd := Derives.valued (subject_quoted text keyword hw hk hq hb _) (space_cons _) (hc _) hp
    (values_intercalate hne hv) (.bare (space_refl _))
  simpa using hd

theorem derives_equals (text : String) (keyword : Keyword) (hw : Spelt text)
    (hk : (Text.lower text, keyword) ∈ keywords) (hf : Quotable field) {s : String}
    (hv : '\u201d' ∉ s.toList) :
    Derives (text ++ Rule.writeColumn field ++ " = " ++ inQuotes s).toList
      ⟨keyword, field, some .equals, [s]⟩ := by
  have hc : ∀ rest, Compares ("=".toList ++ ' ' :: rest) .equals (' ' :: rest) := fun _ => .sign
  have hd := derives_compared text keyword hw hk (quoted_inQuotes hf.noClosing) hf.not_blank hc
    (by decide) (List.cons_ne_nil (inQuotes s) []) (.cons (quoted_inQuotes hv) .nil)
  rw [hf.trim_eq] at hd
  simpa [Rule.writeColumn] using hd

theorem derives_contains (text : String) (keyword : Keyword) (hw : Spelt text)
    (hk : (Text.lower text, keyword) ∈ keywords) (hf : Quotable field) {texts : List String}
    (hne : texts ≠ []) (hv : ∀ s ∈ texts, '\u201d' ∉ s.toList) :
    Derives
      (text ++ Rule.writeColumn field ++ " in " ++ ", ".intercalate (texts.map inQuotes)).toList
      ⟨keyword, field, some .contains, texts⟩ := by
  have hin : Spelt "in" := by decide
  have hc : ∀ rest, Compares ("in".toList ++ ' ' :: rest) .contains (' ' :: rest) :=
    fun _ => .word (hin.word (head?_space _)) (by decide)
  have hd := derives_compared text keyword hw hk (quoted_inQuotes hf.noClosing) hf.not_blank hc
    (by decide) (by simpa using hne) (forall₂_inQuotes hv)
  rw [hf.trim_eq] at hd
  simpa [Rule.writeColumn] using hd

theorem derives_present (text : String) (keyword : Keyword) (hw : Spelt text)
    (hk : (Text.lower text, keyword) ∈ keywords) (hf : Quotable field) :
    Derives (text ++ Rule.writeColumn field ++ " exists").toList
      ⟨keyword, field, some .present, []⟩ := by
  have hexists : Spelt "exists" := by decide
  have hc : Compares ("exists".toList ++ []) .present [] :=
    .word (hexists.word (by simp)) (by decide)
  have hd := Derives.present (subject_writeColumn text keyword hw hk hf _) (space_cons _) hc
    (.bare (space_refl _))
  simpa using hd

theorem derives_bare (hf : Quotable field) :
    Derives ("Unfilter" ++ Rule.writeColumn field).toList ⟨.unfilter, field, none, []⟩ := by
  have hs := subject_writeColumn "Unfilter" .unfilter (by decide) (by decide) hf []
  have hd := Derives.bare hs (.bare (space_refl _))
  simpa using hd

end Lines

section Feeds

theorem noFeed_inQuotes {s : String} (h : '\n' ∉ s.toList) : '\n' ∉ (inQuotes s).toList := by
  have hchar : ∀ c ∈ s.toList, '\n' ∉ escapeQuoted c := by
    intro c hc
    have hne : '\n' ≠ c := fun he => h (he ▸ hc)
    unfold escapeQuoted
    split <;> simp [hne]
  simp only [inQuotes, String.toList_ofList, List.mem_append, List.mem_cons, List.mem_flatMap,
    List.not_mem_nil, or_false]
  rintro ((hq | ⟨c, hc, hm⟩) | hq)
  · cases hq
  · exact hchar c hc hm
  · cases hq

theorem isLine_inQuotes {s : String} (h : '\n' ∉ s.toList) : IsLine (inQuotes s) where
  noFeed := noFeed_inQuotes h
  noReturn := by
    rw [inQuotes, String.toList_ofList, List.getLast?_concat]
    decide
  ne_nil := by simp [inQuotes]

theorem isLine_intercalate {texts : List String} (hne : texts ≠ [])
    (h : ∀ s ∈ texts, IsLine s) : IsLine (", ".intercalate texts) := by
  induction texts with
  | nil => exact absurd rfl hne
  | cons s texts ih =>
    obtain ⟨hs, ht⟩ := List.forall_mem_cons.mp h
    cases texts with
    | nil => simpa using hs
    | cons t texts =>
      rw [String.intercalate_cons_cons]
      refine .append_left ?_ (ih (List.cons_ne_nil t texts) ht)
      simp [hs.noFeed]

end Feeds

end RuleLine

namespace Rule

variable {rule : Rule}

theorem noFeed_writeColumn {field : String} (h : Quotable field) :
    '\n' ∉ (writeColumn field).toList := by
  simp [writeColumn, noFeed_inQuotes h.noFeed]

theorem Writable.unquoted_ne_nil {metric : Metric} {field : String} {values : List Value}
    (h : (⟨metric, field, .contain values⟩ : Rule).Writable) : values.map Value.unquoted ≠ [] :=
  fun he => h.contains (congrArg Constraint.contain (List.map_eq_nil_iff.mp he))

/-- The line of a rule states what the rule says. -/
theorem Writable.derives (h : rule.Writable) : Derives rule.line.toList rule.ruleLine := by
  obtain ⟨metric, field, constraint⟩ := rule
  have hf : Quotable field := h.field
  have hv : ∀ value ∈ constraint.values, '\u201d' ∉ value.unquoted.toList :=
    fun value hv => (h.values value hv).eq_string.2.noClosing
  cases constraint with
  | filter value =>
    exact derives_equals "Filter" .filter (by decide) (by decide) hf (hv value List.mem_cons_self)
  | exclude value =>
    exact derives_equals "Exclude" .exclude (by decide) (by decide) hf (hv value List.mem_cons_self)
  | unfilter => exact derives_bare hf
  | contain values =>
    have hd := derives_contains "Filter" .filter (by decide) (by decide) hf h.unquoted_ne_nil
      (List.forall_mem_map.mpr hv)
    rwa [List.map_map] at hd
  | present => exact derives_present "Filter" .filter (by decide) (by decide) hf

theorem Writable.isLine (h : rule.Writable) : IsLine rule.line := by
  obtain ⟨metric, field, constraint⟩ := rule
  have hf : '\n' ∉ (writeColumn field).toList := noFeed_writeColumn h.field
  have hv : ∀ value ∈ constraint.values, '\n' ∉ value.unquoted.toList :=
    fun value hv => (h.values value hv).eq_string.2.noFeed
  cases constraint with
  | filter value =>
    exact .append_left (by simp [hf]) (isLine_inQuotes (hv value List.mem_cons_self))
  | exclude value =>
    exact .append_left (by simp [hf]) (isLine_inQuotes (hv value List.mem_cons_self))
  | unfilter =>
    have hl : IsLine (writeColumn field) :=
      .append_left (by decide) (isLine_inQuotes h.field.noFeed)
    exact .append_left (by decide) hl
  | contain values =>
    have hne := h.unquoted_ne_nil
    refine .append_left (by simp [hf]) (isLine_intercalate (by simpa using hne) ?_)
    exact List.forall_mem_map.mpr fun value hm => isLine_inQuotes (hv value hm)
  | present => exact .append_left (by simp [hf]) ⟨by decide, by decide, by decide⟩

end Rule

end TallyRules
