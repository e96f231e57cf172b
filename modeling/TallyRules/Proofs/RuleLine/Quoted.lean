import TallyRules.Proofs.RuleLine.Grammar

/-! # Quoted texts

A quoted text is scanned up to its first closing quote that no backslash takes
with it. A text without a typographic closing quote is read back from between
straight quotes if a backslash stands before each straight quote and each
backslash of it.
-/

namespace TallyRules.RuleLine

open Text (skipBlank)

variable {cs rest s : List Char} {text : String}

theorem isOpeningQuote_iff {c : Char} : isOpeningQuote c = true ↔ c = '"' ∨ c = '\u201c' := by
  simp [isOpeningQuote]

theorem scanQuotedRest_cons {c : Char} (hb : c ≠ '\\') (cs : List Char) :
    scanQuotedRest (c :: cs) = if isClosingQuote c then some ([], cs)
      else (scanQuotedRest cs).map fun (s, rest) => (c :: s, rest) := by
  rw [scanQuotedRest]
  · exact fun h _ => hb h
  · exact fun _ _ h _ => hb h

/-- A backslash is the last character, or takes the next one with it. -/
theorem ne_backslash {c : Char} (hend : c = '\\' → cs = [] → False)
    (hnext : ∀ d tail, c = '\\' → cs = d :: tail → False) : c ≠ '\\' := by
  intro hc
  cases cs with
  | nil => exact hend hc rfl
  | cons d tail => exact hnext d tail hc rfl

theorem body_of_scanQuotedRest (h : scanQuotedRest cs = some (s, rest)) : Body cs s rest := by
  fun_induction scanQuotedRest cs generalizing s with
  | case1 => cases h
  | case2 => cases h
  | case3 c cs ih =>
    obtain ⟨⟨t, r⟩, ht, he⟩ := Option.map_eq_some_iff.mp h
    cases he
    exact .escaped (ih ht)
  | case4 c cs _ _ hq =>
    cases h
    exact .close hq
  | case5 c cs hb hb' hq ih =>
    obtain ⟨⟨t, r⟩, ht, he⟩ := Option.map_eq_some_iff.mp h
    cases he
    exact .plain (ne_backslash hb hb') (Bool.not_eq_true _ ▸ hq) (ih ht)

theorem Body.scanQuotedRest_eq (h : Body cs s rest) : scanQuotedRest cs = some (s, rest) := by
  induction h with
  | @close q rest hq =>
    have hb : q ≠ '\\' := by
      rintro rfl
      cases hq
    rw [scanQuotedRest_cons hb, if_pos hq]
  | escaped _ ih => simp [scanQuotedRest, ih]
  | plain hb hq _ ih => simp [scanQuotedRest_cons hb, hq, ih]

theorem scanQuoted_eq_some_iff : scanQuoted cs = some (text, rest) ↔ Quoted cs text rest := by
  constructor
  · intro h
    cases cs with
    | nil => cases h
    | cons q cs =>
      simp only [scanQuoted] at h
      split at h
      · rename_i hq
        obtain ⟨⟨t, r⟩, ht, he⟩ := Option.map_eq_some_iff.mp h
        cases he
        exact .mk hq (body_of_scanQuotedRest ht)
      · cases h
  · rintro ⟨hq, h⟩
    simp [scanQuoted, hq, h.scanQuotedRest_eq]

theorem Quoted.skipBlank_eq (h : Quoted cs text rest) : skipBlank cs = cs := by
  obtain ⟨hq, _⟩ := h
  rcases isOpeningQuote_iff.mp hq with rfl | rfl <;> rfl

theorem Body.append (h : Body cs s rest) (more : List Char) :
    Body (cs ++ more) s (rest ++ more) := by
  induction h with
  | close hq => exact .close hq
  | escaped _ ih => exact .escaped ih
  | plain hb hq _ ih => exact .plain hb hq ih

theorem Quoted.append (h : Quoted cs text rest) (more : List Char) :
    Quoted (cs ++ more) text (rest ++ more) := by
  obtain ⟨hq, h⟩ := h
  exact .mk hq (h.append more)

theorem Body.exists_getLast? (h : Body cs s rest) (hr : rest = []) :
    ∃ q, cs.getLast? = some q ∧ isClosingQuote q = true := by
  induction h with
  | @close q rest hq => exact ⟨q, by rw [hr]; rfl, hq⟩
  | escaped _ ih | plain _ _ _ ih =>
    obtain ⟨q, hl, hq⟩ := ih hr
    exact ⟨q, by simp [List.getLast?_cons, hl], hq⟩

theorem Quoted.exists_getLast? (h : Quoted cs text []) :
    ∃ q, cs.getLast? = some q ∧ isClosingQuote q = true := by
  obtain ⟨-, h⟩ := h
  obtain ⟨q, hl, hq⟩ := h.exists_getLast? rfl
  exact ⟨q, by simp [List.getLast?_cons, hl], hq⟩

def escapeQuoted (c : Char) : List Char :=
  if c = '"' ∨ c = '\\' then ['\\', c] else [c]

def inQuotes (s : String) : String :=
  String.ofList ('"' :: s.toList.flatMap escapeQuoted ++ ['"'])

theorem body_escapeQuoted (h : '\u201d' ∉ s) (rest : List Char) :
    Body (s.flatMap escapeQuoted ++ '"' :: rest) s rest := by
  induction s with
  | nil => exact .close rfl
  | cons c s ih =>
    obtain ⟨hc, hs⟩ := not_or.mp (mt List.mem_cons.mpr h)
    rw [List.flatMap_cons, List.append_assoc]
    by_cases he : c = '"' ∨ c = '\\'
    · have hu : unescape c = [c] := if_pos he
      have hb := Body.escaped (c := c) (ih hs)
      rw [hu] at hb
      rwa [escapeQuoted, if_pos he]
    · obtain ⟨hq, hb⟩ := not_or.mp he
      rw [escapeQuoted, if_neg he]
      exact .plain hb (by simp [isClosingQuote, hq, Ne.symm hc]) (ih hs)

theorem quoted_inQuotes (h : '\u201d' ∉ text.toList) : Quoted (inQuotes text).toList text [] := by
  have hq := Quoted.mk (q := '"') rfl (body_escapeQuoted h [])
  rw [String.ofList_toList] at hq
  simpa [inQuotes] using hq

end TallyRules.RuleLine
