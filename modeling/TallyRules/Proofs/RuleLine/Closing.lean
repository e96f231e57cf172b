import Mathlib.Order.Bounds.Basic
import TallyRules.Proofs.RuleLine.Quoted

/-! # The quote that closes a text

A backslash takes the next character with it, whatever that is, so that the
character neither closes the text nor takes another one. A quoted text ends
with the first closing quote that is not taken, and what stands before it is
the text, in which a straight quote or a backslash may have been taken. If
every closing quote is taken, there is no quoted text.
-/

namespace TallyRules.RuleLine

variable {cs rest s : List Char} {c : Char} {i k : Nat}

/-- Whether the character at a place is taken by a backslash before it. Backslashes take characters
from the left. -/
def Taken (cs : List Char) : Nat → Prop
  | 0 => False
  | i + 1 => cs[i]? = some '\\' ∧ ¬ Taken cs i

/-- Whether a closing quote stands at a place, and is not taken. -/
def ClosesAt (cs : List Char) (i : Nat) : Prop :=
  (cs[i]? = some '"' ∨ cs[i]? = some '\u201d') ∧ ¬ Taken cs i

/-- A text without the backslashes that have taken a straight quote or a backslash. -/
def decoded : List Char → List Char
  | '\\' :: '"' :: cs => '"' :: decoded cs
  | '\\' :: '\\' :: cs => '\\' :: decoded cs
  | '\\' :: c :: cs => '\\' :: c :: decoded cs
  | c :: cs => c :: decoded cs
  | [] => []

theorem decoded_backslash (c : Char) (cs : List Char) :
    decoded ('\\' :: c :: cs) = unescape c ++ decoded cs := by
  by_cases hq : c = '"'
  · subst hq
    rfl
  by_cases hb : c = '\\'
  · subst hb
    rfl
  have hu : unescape c = ['\\', c] := if_neg (not_or.mpr ⟨hq, hb⟩)
  rw [hu, decoded]
  · rfl
  · exact hq
  · exact hb

theorem decoded_cons (hb : c ≠ '\\') (cs : List Char) : decoded (c :: cs) = c :: decoded cs := by
  rw [decoded] <;> simp [hb]

/-- From a place that is not taken on, characters are taken as in what stands there. -/
theorem taken_add (h : ¬ Taken cs k) (i : Nat) : Taken cs (k + i) ↔ Taken (cs.drop k) i := by
  induction i with
  | zero => exact iff_of_false h id
  | succ i ih => rw [← Nat.add_assoc, Taken, Taken, ih, List.getElem?_drop]

theorem closesAt_add (h : ¬ Taken cs k) (i : Nat) :
    ClosesAt cs (k + i) ↔ ClosesAt (cs.drop k) i := by
  rw [ClosesAt, ClosesAt, taken_add h, List.getElem?_drop]

theorem closesAt_iff_exists_add (hk : ¬ Taken cs k) (hn : ∀ j < k, ¬ ClosesAt cs j) :
    ClosesAt cs i ↔ ∃ j, i = k + j ∧ ClosesAt (cs.drop k) j := by
  constructor
  · intro h
    obtain ⟨j, rfl⟩ := Nat.exists_eq_add_of_le (Nat.le_of_not_lt fun hi => hn i hi h)
    exact ⟨j, rfl, (closesAt_add hk j).mp h⟩
  · rintro ⟨j, rfl, h⟩
    exact (closesAt_add hk j).mpr h

theorem closesAt_zero_iff : ClosesAt (c :: cs) 0 ↔ isClosingQuote c = true := by
  simp [ClosesAt, Taken, isClosingQuote]

theorem closesAt_backslash_iff :
    ClosesAt ('\\' :: c :: cs) i ↔ ∃ j, i = 2 + j ∧ ClosesAt cs j := by
  have hone : Taken ('\\' :: c :: cs) 1 := ⟨rfl, id⟩
  refine closesAt_iff_exists_add (k := 2) (fun h => h.2 hone) fun j hj h => ?_
  match j with
  | 0 => exact absurd (closesAt_zero_iff.mp h) (by decide)
  | 1 => exact h.2 hone

theorem closesAt_cons_iff (hb : c ≠ '\\') (hq : isClosingQuote c = false) :
    ClosesAt (c :: cs) i ↔ ∃ j, i = 1 + j ∧ ClosesAt cs j := by
  refine closesAt_iff_exists_add (k := 1) (fun h => hb (Option.some.inj h.1)) fun j hj h => ?_
  obtain rfl : j = 0 := Nat.lt_one_iff.mp hj
  simp [closesAt_zero_iff, hq] at h

theorem isLeast_closesAt_add {ds : List Char}
    (h : ∀ i, ClosesAt cs i ↔ ∃ j, i = k + j ∧ ClosesAt ds j)
    (hi : IsLeast {i | ClosesAt ds i} i) : IsLeast {i | ClosesAt cs i} (k + i) := by
  refine ⟨(h _).mpr ⟨i, rfl, hi.1⟩, fun m hm => ?_⟩
  obtain ⟨j, rfl, hj⟩ := (h m).mp hm
  exact Nat.add_le_add_left (hi.2 hj) k

/-- A text up to its closing quote is closed at the first place where it can be. -/
theorem Body.exists_isLeast (h : Body cs s rest) :
    ∃ i, IsLeast {i | ClosesAt cs i} i ∧ s = decoded (cs.take i) ∧ rest = cs.drop (i + 1) := by
  -- nothing closes within what a step takes, so that the first place moves on with it
  induction h with
  | close hq => exact ⟨0, ⟨closesAt_zero_iff.mpr hq, fun j _ => Nat.zero_le j⟩, rfl, rfl⟩
  | escaped _ ih =>
    obtain ⟨i, hi, rfl, rfl⟩ := ih
    refine ⟨2 + i, isLeast_closesAt_add (fun _ => closesAt_backslash_iff) hi, ?_, ?_⟩
    · rw [Nat.add_comm, List.take_succ_cons, List.take_succ_cons, decoded_backslash]
    · rw [Nat.add_comm 2, List.drop_succ_cons, List.drop_succ_cons]
  | plain hb hq _ ih =>
    obtain ⟨i, hi, rfl, rfl⟩ := ih
    refine ⟨1 + i, isLeast_closesAt_add (fun _ => closesAt_cons_iff hb hq) hi, ?_, ?_⟩
    · rw [Nat.add_comm, List.take_succ_cons, decoded_cons hb]
    · rw [Nat.add_comm 1, List.drop_succ_cons]

theorem not_closesAt_of_scanQuotedRest (h : scanQuotedRest cs = none) (i : Nat) :
    ¬ ClosesAt cs i := by
  fun_induction scanQuotedRest cs generalizing i with
  | case1 => simp [ClosesAt]
  | case2 => cases i <;> simp [ClosesAt]
  | case3 c cs ih =>
    rw [closesAt_backslash_iff]
    rintro ⟨j, -, hj⟩
    exact ih (Option.map_eq_none_iff.mp h) j hj
  | case4 => cases h
  | case5 c cs hb hb' hq ih =>
    rw [closesAt_cons_iff (ne_backslash hb hb') (Bool.not_eq_true _ ▸ hq)]
    rintro ⟨j, -, hj⟩
    exact ih (Option.map_eq_none_iff.mp h) j hj

theorem exists_body (h : ClosesAt cs i) : ∃ s rest, Body cs s rest := by
  cases hs : scanQuotedRest cs with
  | none => exact absurd h (not_closesAt_of_scanQuotedRest hs i)
  | some result => exact ⟨_, _, body_of_scanQuotedRest hs⟩

theorem body_iff : Body cs s rest ↔
    ∃ i, IsLeast {i | ClosesAt cs i} i ∧ s = decoded (cs.take i) ∧ rest = cs.drop (i + 1) := by
  constructor
  · exact Body.exists_isLeast
  · rintro ⟨i, hi, rfl, rfl⟩
    obtain ⟨s, rest, h⟩ := exists_body hi.1
    obtain ⟨j, hj, rfl, rfl⟩ := h.exists_isLeast
    rwa [hj.unique hi] at h

/-- A quoted text is read if it begins with an opening quote and a closing quote that is not taken
comes later. It ends with the first of these, what follows is left, and the text is what stands
between the quotes, decoded. So a text without a typographic closing quote is read back from between
quotes, whatever follows. -/
theorem scanQuoted_closes :
    (∀ cs, (∃ text rest, scanQuoted cs = some (text, rest)) ↔
      ∃ q tail i, cs = q :: tail ∧ (q = '"' ∨ q = '\u201c') ∧ ClosesAt tail i) ∧
    (∀ cs text rest, scanQuoted cs = some (text, rest) ↔
      ∃ q tail i, cs = q :: tail ∧ (q = '"' ∨ q = '\u201c') ∧ IsLeast {i | ClosesAt tail i} i ∧
        text = .ofList (decoded (tail.take i)) ∧ rest = tail.drop (i + 1)) ∧
    ∀ text rest, '\u201d' ∉ text.toList →
      scanQuoted ((inQuotes text).toList ++ rest) = some (text, rest) := by
  refine ⟨fun cs => ?_, fun cs text rest => ?_, fun text rest h => ?_⟩
  · constructor
    · rintro ⟨text, rest, h⟩
      obtain ⟨hq, hb⟩ := scanQuoted_eq_some_iff.mp h
      obtain ⟨i, hi, -⟩ := hb.exists_isLeast
      exact ⟨_, _, i, rfl, isOpeningQuote_iff.mp hq, hi.1⟩
    · rintro ⟨q, tail, i, rfl, hq, hi⟩
      obtain ⟨s, rest, hb⟩ := exists_body hi
      exact ⟨_, rest, scanQuoted_eq_some_iff.mpr (.mk (isOpeningQuote_iff.mpr hq) hb)⟩
  · rw [scanQuoted_eq_some_iff]
    constructor
    · rintro ⟨hq, hb⟩
      obtain ⟨i, hi, rfl, rfl⟩ := body_iff.mp hb
      exact ⟨_, _, i, rfl, isOpeningQuote_iff.mp hq, hi, rfl, rfl⟩
    · rintro ⟨q, tail, i, rfl, hq, hi, rfl, rfl⟩
      exact .mk (isOpeningQuote_iff.mpr hq) (body_iff.mpr ⟨i, hi, rfl, rfl⟩)
  · have hq := (quoted_inQuotes h).append rest
    exact scanQuoted_eq_some_iff.mpr hq

/-- A text that ends in a quote and a backslash, before another quote. -/
theorem scanQuoted_closes_backslash :
    '\u201d' ∉ "\u201cit\\\"\\".toList ∧
      scanQuoted "\"\u201cit\\\\\\\"\\\\\"\"".toList = some ("\u201cit\\\"\\", ['"']) := by
  have h : '\u201d' ∉ "\u201cit\\\"\\".toList := by decide
  have ht : "\"\u201cit\\\\\\\"\\\\\"\"".toList =
      (inQuotes "\u201cit\\\"\\").toList ++ ['"'] := by decide
  rw [ht]
  exact ⟨h, scanQuoted_closes.2.2 _ ['"'] h⟩

end TallyRules.RuleLine
