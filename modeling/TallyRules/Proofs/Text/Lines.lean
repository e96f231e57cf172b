import TallyRules.Text.Lines

/-! # Lines that are joined

Lines that are joined by line feeds are the lines of the text that results. No
line may hold a line feed or end with a carriage return, and a line that is
empty would not count as the last one.
-/

namespace TallyRules.Text

/-- The text holds no line feed, does not end with a carriage return, and is not empty. -/
structure IsLine (s : String) : Prop where
  noFeed : '\n' ∉ s.toList
  noReturn : s.toList.getLast? ≠ some '\r'
  ne_nil : s.toList ≠ []

theorem IsLine.append_left {s t : String} (hs : '\n' ∉ s.toList) (h : IsLine t) :
    IsLine (s ++ t) where
  noFeed := by
    rw [String.toList_append, List.mem_append]
    exact fun hm => hm.elim hs h.noFeed
  noReturn := by
    rw [String.toList_append, List.getLast?_append, List.getLast?_eq_some_getLast h.ne_nil,
      Option.some_or, ← List.getLast?_eq_some_getLast h.ne_nil]
    exact h.noReturn
  ne_nil := by
    rw [String.toList_append]
    exact List.append_ne_nil_of_right_ne_nil _ h.ne_nil

variable {line : List Char}

theorem lineChars_append (hf : '\n' ∉ line) (hr : line.getLast? ≠ some '\r') (cs : List Char) :
    lineChars (line ++ '\n' :: cs) = line :: lineChars cs := by
  induction line with
  | nil => rfl
  | cons c line ih =>
    obtain ⟨hc, hl⟩ := not_or.mp (mt List.mem_cons.mpr hf)
    have hlast : line.getLast? ≠ some '\r' := by
      cases line with
      | nil => simp
      | cons d line => rwa [List.getLast?_cons_cons] at hr
    rw [List.cons_append, lineChars, ih hl hlast, consLine]
    · exact Ne.symm hc
    -- a carriage return stands before a line feed only at the end of the line
    · rintro rest rfl he
      cases line with
      | nil => exact hr rfl
      | cons d line =>
        cases he
        exact hl List.mem_cons_self

theorem lineChars_of_ne_nil (hf : '\n' ∉ line) (hn : line ≠ []) : lineChars line = [line] := by
  induction line with
  | nil => exact absurd rfl hn
  | cons c line ih =>
    obtain ⟨hc, hl⟩ := not_or.mp (mt List.mem_cons.mpr hf)
    have hne : ∀ cs, line = '\n' :: cs → False := by
      rintro cs rfl
      exact hl List.mem_cons_self
    rw [lineChars]
    · cases line with
      | nil => rfl
      | cons d line => rw [ih hl (List.cons_ne_nil d line), consLine]
    · exact Ne.symm hc
    · exact fun cs _ he => hne cs he

theorem lines_intercalate {texts : List String} (h : ∀ s ∈ texts, IsLine s) :
    lines ("\n".intercalate texts) = texts := by
  have hchars : lineChars ("\n".intercalate texts).toList = texts.map String.toList := by
    rw [String.toList_intercalate]
    induction texts with
    | nil => rfl
    | cons s texts ih =>
      obtain ⟨hl, hs⟩ := List.forall_mem_cons.mp h
      cases texts with
      | nil => simpa using lineChars_of_ne_nil hl.noFeed hl.ne_nil
      | cons t texts =>
        have hfeed : "\n".toList = ['\n'] := rfl
        rw [List.map_cons, List.map_cons, List.intercalate_cons_cons, hfeed, List.append_assoc,
          List.singleton_append, lineChars_append hl.noFeed hl.noReturn, ← List.map_cons,
          ← hfeed, ih hs]
  rw [lines, hchars, List.map_map]
  simp

end TallyRules.Text
