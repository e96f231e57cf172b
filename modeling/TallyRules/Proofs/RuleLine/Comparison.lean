import TallyRules.Proofs.RuleLine.Written
import TallyRules.Proofs.Text.Case

/-! # Lines that compare

A line may write the texts in it in several ways, with straight or typographic
quotes and with or without backslashes, and its comparison as a sign or a word
in any case. Whatever is written, the line states what is read from it.
-/

namespace TallyRules.RuleLine

open Text (isBlank isWordChar lower trim IsLine)

section Words

variable {text sign : String} {comparator : Comparator}

theorem Spelt.of_lower (h : Spelt (lower text)) : Spelt text := by
  obtain ⟨hne, hall⟩ := h
  simp only [lower, String.toList_ofList, ne_eq, List.map_eq_nil_iff] at hne
  simp only [lower, String.toList_ofList, List.all_map, List.all_eq_true,
    Function.comp_apply] at hall
  exact ⟨hne, List.all_eq_true.mpr fun c hc => Text.isWordChar_of_toLower (hall c hc)⟩

theorem Spelt.noFeed (h : Spelt text) : '\n' ∉ text.toList := by
  intro hm
  exact absurd (List.all_eq_true.mp h.2 _ hm) (by decide)

def compared? (sign : String) : Option Comparator :=
  if sign = "=" ∨ sign = "==" then some .equals else comparator? (lower sign)

theorem compared?_cases (h : compared? sign = some comparator) :
    (sign = "=" ∨ sign = "==") ∧ comparator = .equals ∨
      Spelt sign ∧ (lower sign, comparator) ∈ comparisons := by
  unfold compared? at h
  split at h
  · rename_i hs
    exact Or.inl ⟨hs, (Option.some.inj h).symm⟩
  · have hspelt : comparisons.all (fun entry => Spelt entry.1) = true := by decide
    have hm := comparator?_eq_some_iff.mp h
    have hw := List.all_eq_true.mp hspelt _ hm
    rw [decide_eq_true_eq] at hw
    exact Or.inr ⟨.of_lower hw, hm⟩

theorem compares_of_compared? (h : compared? sign = some comparator) (rest : List Char) :
    Compares (sign.toList ++ ' ' :: rest) comparator (' ' :: rest) := by
  rcases compared?_cases h with ⟨rfl | rfl, rfl⟩ | ⟨hs, hm⟩
  · exact .sign
  · exact .doubleSign
  · exact .word (hs.word (head?_space rest)) hm

theorem noFeed_of_compared? (h : compared? sign = some comparator) : '\n' ∉ sign.toList := by
  rcases compared?_cases h with ⟨rfl | rfl, -⟩ | ⟨hs, -⟩
  · decide
  · decide
  · exact hs.noFeed

end Words

/-- A text between quotes on one line, as it is written and as it is read. -/
structure QuotedText where
  written : String
  content : String
  quoted : Quoted written.toList content []
  noFeed : '\n' ∉ written.toList

namespace QuotedText

def ofText (s : String) (hf : '\n' ∉ s.toList) (hc : '\u201d' ∉ s.toList) : QuotedText :=
  ⟨inQuotes s, s, quoted_inQuotes hc, noFeed_inQuotes hf⟩

theorem isLine (t : QuotedText) : IsLine t.written where
  noFeed := t.noFeed
  noReturn := by
    obtain ⟨q, hl, hq⟩ := t.quoted.exists_getLast?
    rw [hl]
    rintro ⟨⟩
    exact absurd hq (by decide)
  ne_nil := by
    intro hn
    obtain ⟨q, hl, -⟩ := t.quoted.exists_getLast?
    rw [hn] at hl
    cases hl

theorem forall₂ (texts : List QuotedText) :
    List.Forall₂ (fun w s => Quoted w.toList s []) (texts.map written) (texts.map content) := by
  rw [List.forall₂_map_left_iff, List.forall₂_map_right_iff, List.forall₂_same]
  exact fun t _ => t.quoted

end QuotedText

def comparisonLine (keyword : String) (column : QuotedText) (sign : String)
    (values : List QuotedText) : String :=
  keyword ++ " column " ++ column.written ++ " " ++ sign ++ " " ++
    ", ".intercalate (values.map QuotedText.written)

section Lines

variable {column : QuotedText} {sign : String} {comparator : Comparator}
  {values : List QuotedText}

theorem derives_comparisonLine (text : String) (keyword : Keyword) (hw : Spelt text)
    (hk : (lower text, keyword) ∈ keywords) (hb : isBlank column.content = false)
    (hs : compared? sign = some comparator) (hp : comparator ≠ .present) (hne : values ≠ []) :
    Derives (comparisonLine text column sign values).toList
      ⟨keyword, trim column.content, some comparator, values.map QuotedText.content⟩ :=
  derives_compared text keyword hw hk column.quoted hb (compares_of_compared? hs) hp
    (by simpa using hne) (QuotedText.forall₂ values)

theorem isLine_comparisonLine {text : String} (hw : Spelt text)
    (hs : compared? sign = some comparator) (hne : values ≠ []) :
    IsLine (comparisonLine text column sign values) := by
  have hvalues : IsLine (", ".intercalate (values.map QuotedText.written)) :=
    isLine_intercalate (by simpa using hne) (List.forall_mem_map.mpr fun t _ => t.isLine)
  refine .append_left ?_ hvalues
  simp [hw.noFeed, column.noFeed, noFeed_of_compared? hs]

end Lines

end TallyRules.RuleLine
