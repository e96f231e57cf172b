import TallyRules.Proofs.RuleLine.Written

/-! # The parts of a line

Each rule of the grammar reads a part of a text, and it reads the part alike
whatever comes after, except that a word ends where no character of a word
follows. So a line that is read up to a place may go on from there in another
way.
-/

namespace TallyRules.RuleLine

open Text (isWordChar)

variable {cs a b rest : List Char} {word : String}

section Next

variable {p q : Char → Bool}

/-- A run of the class ends here, as no character of it is next. -/
def EndsRun (p : Char → Bool) (cs : List Char) : Prop :=
  ∀ c ∈ cs.head?, p c = false

theorem endsRun_cons {c : Char} (h : p c = false) (cs : List Char) : EndsRun p (c :: cs) := by
  rintro _ ⟨⟩
  exact h

theorem EndsRun.mono (h : EndsRun p cs) (hpq : ∀ c, q c = true → p c = true) : EndsRun q cs := by
  intro c hc
  by_contra hq
  have hp := hpq c (Bool.not_eq_false _ ▸ hq)
  rw [h c hc] at hp
  cases hp

/-- What is next is of the first part, if there is anything in it. -/
theorem EndsRun.append (h : EndsRun p (a ++ b)) (hr : a = [] → EndsRun p rest) :
    EndsRun p (a ++ rest) := by
  cases a with
  | nil => exact hr rfl
  | cons c a => exact h

theorem isFillerChar_of_isWordChar {c : Char} (h : isWordChar c = true) :
    isFillerChar c = true := by
  have hb := Text.isBlankChar_eq_false_of_isWordChar h
  have hq : isOpeningQuote c = false := by
    by_contra hq
    rw [Bool.not_eq_false, isOpeningQuote_iff] at hq
    rcases hq with rfl | rfl <;> exact absurd h (by decide +kernel)
  rw [isFillerChar, hb, hq]
  rfl

theorem takeWhile_append_of_endsRun (h : EndsRun p b) (a : List Char) :
    (a ++ b).takeWhile p = a.takeWhile p := by
  induction a with
  | nil =>
    cases b with
    | nil => rfl
    | cons c b => simp [h c rfl]
  | cons c a ih => by_cases hc : p c = true <;> simp [hc, ih]

end Next

section Parts

theorem Space.exists_part (h : Space cs rest) :
    ∃ part, cs = part ++ rest ∧ ∀ more, Space (part ++ more) more := by
  obtain ⟨blanks, rfl, hb⟩ := h
  exact ⟨blanks, rfl, fun _ => ⟨blanks, rfl, hb⟩⟩

theorem Space.endsRun (h : Space cs rest) (hr : EndsRun isWordChar rest) :
    EndsRun isWordChar cs := by
  obtain ⟨blanks, rfl, hb⟩ := h
  cases blanks with
  | nil => exact hr
  | cons c blanks =>
    refine endsRun_cons ?_ _
    by_contra hw
    have hc := Text.isBlankChar_eq_false_of_isWordChar (Bool.not_eq_false _ ▸ hw)
    rw [hb c List.mem_cons_self] at hc
    cases hc

theorem Word.exists_part (h : Word cs word rest) :
    ∃ part, cs = part ++ rest ∧ part ≠ [] ∧
      ∀ more, EndsRun isWordChar more → Word (part ++ more) word more := by
  obtain ⟨letters, rfl, hne, hl, -, hw⟩ := h
  exact ⟨letters, rfl, hne, fun more hm => ⟨letters, rfl, hne, hl, hm, hw⟩⟩

theorem Marker.exists_part (h : Marker cs rest) :
    ∃ part, cs = part ++ rest ∧ ∀ more, Marker (part ++ more) more := by
  cases h with
  | @number digits c _ hne hd hc =>
    refine ⟨digits ++ [c], by simp, fun more => ?_⟩
    rw [List.append_assoc]
    exact .number hne hd hc
  | hyphen => exact ⟨['-'], rfl, fun _ => .hyphen⟩
  | asterisk => exact ⟨['*'], rfl, fun _ => .asterisk⟩

theorem Start.exists_part {keyword : Keyword} (h : Start cs keyword rest) :
    ∃ part, cs = part ++ rest ∧
      ∀ more, EndsRun isWordChar more → Start (part ++ more) keyword more := by
  cases h with
  | plain hs hw hk =>
    obtain ⟨blanks, rfl, hspace⟩ := hs.exists_part
    obtain ⟨letters, rfl, -, hword⟩ := hw.exists_part
    refine ⟨blanks ++ letters, (List.append_assoc _ _ _).symm, fun more hm => ?_⟩
    rw [List.append_assoc]
    exact .plain (hspace _) (hword more hm) hk
  | marked hs hm hs' hw hk =>
    obtain ⟨before, rfl, hbefore⟩ := hs.exists_part
    obtain ⟨mark, rfl, hmark⟩ := hm.exists_part
    obtain ⟨after, rfl, hafter⟩ := hs'.exists_part
    obtain ⟨letters, rfl, -, hword⟩ := hw.exists_part
    refine ⟨before ++ (mark ++ (after ++ letters)), by simp, fun more hmore => ?_⟩
    simp only [List.append_assoc]
    exact .marked (hbefore _) (hmark _) (hafter _) (hword more hmore) hk

theorem Start.endsRun {keyword : Keyword} (h : Start cs keyword rest) :
    EndsRun isWordChar rest := by
  cases h with
  | plain _ hw _ | marked _ _ _ hw _ =>
    obtain ⟨_, _, _, _, hr, _⟩ := hw
    exact hr

theorem not_word_append (ha : EndsRun isWordChar a) (hb : EndsRun isWordChar b) {part : List Char}
    (h : ∀ r, ¬ Word (part ++ a) word r) (r : List Char) : ¬ Word (part ++ b) word r := by
  rintro ⟨letters, he, hne, hl, hr, hw⟩
  have hletters : part.takeWhile isWordChar = letters := by
    rw [← takeWhile_append_of_endsRun hb, he, takeWhile_append hl hr]
  have hpart : part = letters ++ part.dropWhile isWordChar := by
    rw [← hletters, List.takeWhile_append_dropWhile]
  have hends : EndsRun isWordChar (part.dropWhile isWordChar ++ a) := by
    refine EndsRun.append (b := []) ?_ fun _ => ha
    rw [List.append_nil]
    exact head?_dropWhile isWordChar part
  refine h (part.dropWhile isWordChar ++ a) ⟨letters, ?_, hne, hl, hends, hw⟩
  rw [← List.append_assoc, ← hpart]

theorem Filler.exists_part (h : Filler cs rest) (hn : ∀ r, ¬ Word cs word r) :
    ∃ part, cs = part ++ rest ∧ ∀ more, EndsRun isFillerChar more →
      Filler (part ++ more) more ∧ ∀ r, ¬ Word (part ++ more) word r := by
  obtain ⟨chars, rfl, hne, hc, hr⟩ := h
  have hword : ∀ {more}, EndsRun isFillerChar more → EndsRun isWordChar more :=
    fun hm => hm.mono fun _ => isFillerChar_of_isWordChar
  exact ⟨chars, rfl, fun more hm =>
    ⟨⟨chars, rfl, hne, hc, hm⟩, not_word_append (hword hr) (hword hm) hn⟩⟩

theorem Filler.endsRun (h : Filler cs rest) : EndsRun isFillerChar rest := by
  obtain ⟨_, _, _, _, hr⟩ := h
  exact hr

theorem ToColumn.of_space (hs : Space cs a) (h : ToColumn a rest) : ToColumn cs rest := by
  cases h with
  | column hs' hw => exact .column (hs.trans hs') hw
  | filler hs' hn hf h => exact .filler (hs.trans hs') hn hf h

theorem ToColumn.exists_part (h : ToColumn cs rest) :
    ∃ part, cs = part ++ rest ∧ part ≠ [] ∧
      ∀ more, EndsRun isWordChar more → ToColumn (part ++ more) more := by
  induction h with
  | column hs hw =>
    obtain ⟨blanks, rfl, hspace⟩ := hs.exists_part
    obtain ⟨letters, rfl, hne, hword⟩ := hw.exists_part
    refine ⟨blanks ++ letters, (List.append_assoc _ _ _).symm, by simp [hne], fun more hm => ?_⟩
    rw [List.append_assoc]
    exact .column (hspace _) (hword more hm)
  | filler hs hn hf _ ih =>
    obtain ⟨part, rfl, hne, hcolumn⟩ := ih
    obtain ⟨blanks, rfl, hspace⟩ := hs.exists_part
    obtain ⟨chars, rfl, hfiller⟩ := hf.exists_part hn
    refine ⟨blanks ++ (chars ++ part), by simp, by simp [hne], fun more hm => ?_⟩
    have hends : EndsRun isFillerChar (part ++ more) := hf.endsRun.append fun he => absurd he hne
    obtain ⟨hf', hn'⟩ := hfiller (part ++ more) hends
    simp only [List.append_assoc]
    exact .filler (hspace _) hn' hf' (hcolumn more hm)

theorem Quoted.endsRun {text : String} (h : Quoted cs text rest) : EndsRun isWordChar cs := by
  obtain ⟨hq, _⟩ := h
  refine endsRun_cons ?_ _
  by_contra hw
  have hf := isFillerChar_of_isWordChar (Bool.not_eq_false _ ▸ hw)
  simp [isFillerChar, hq] at hf

theorem Body.exists_part {s : List Char} (h : Body cs s rest) :
    ∃ part, cs = part ++ rest ∧ ∀ more, Body (part ++ more) s more := by
  induction h with
  | @close q rest hq => exact ⟨[q], rfl, fun _ => .close hq⟩
  | @escaped c cs s rest _ ih =>
    obtain ⟨part, rfl, hbody⟩ := ih
    exact ⟨'\\' :: c :: part, rfl, fun more => .escaped (hbody more)⟩
  | @plain c cs s rest hb hq _ ih =>
    obtain ⟨part, rfl, hbody⟩ := ih
    exact ⟨c :: part, rfl, fun more => .plain hb hq (hbody more)⟩

theorem Quoted.exists_part {text : String} (h : Quoted cs text rest) :
    ∃ part, cs = part ++ rest ∧ ∀ more, Quoted (part ++ more) text more := by
  obtain ⟨hq, h⟩ := h
  obtain ⟨part, rfl, hbody⟩ := h.exists_part
  exact ⟨_ :: part, rfl, fun more => .mk hq (hbody more)⟩

/-- The words of a line up to its column are read alike before any column. -/
theorem Start.exists_part_toColumn {keyword : Keyword} (hk : Start cs keyword a)
    (hc : ToColumn a rest) :
    ∃ part, cs = part ++ rest ∧ ∀ more, EndsRun isWordChar more →
      ∃ words, Start (part ++ more) keyword words ∧ ToColumn words more := by
  obtain ⟨words, rfl, hne, hwords⟩ := hc.exists_part
  obtain ⟨start, rfl, hstart⟩ := hk.exists_part
  refine ⟨start ++ words, (List.append_assoc _ _ _).symm, fun more hm => ?_⟩
  rw [List.append_assoc]
  have hends : EndsRun isWordChar (words ++ more) := hk.endsRun.append fun he => absurd he hne
  exact ⟨words ++ more, hstart _ hends, hwords more hm⟩

theorem Subject.exists_part {keyword : Keyword} {column : String}
    (h : Subject cs keyword column rest) :
    ∃ part, cs = part ++ rest ∧ ∀ more, Subject (part ++ more) keyword column more := by
  obtain ⟨hk, hc, hs, hq, hb⟩ := h
  obtain ⟨before, rfl, hbefore⟩ := hk.exists_part_toColumn hc
  obtain ⟨blanks, rfl, hspace⟩ := hs.exists_part
  obtain ⟨quoted, rfl, hquoted⟩ := hq.exists_part
  refine ⟨before ++ (blanks ++ quoted), by simp, fun more => ?_⟩
  obtain ⟨words, hk', hc'⟩ := hbefore _ ((hspace _).endsRun (hquoted more).endsRun)
  simp only [List.append_assoc]
  exact .mk hk' hc' (hspace _) (hquoted more) hb

theorem Compares.exists_part {comparator : Comparator} (h : Compares cs comparator rest) :
    ∃ part, cs = part ++ rest ∧
      ∀ more, EndsRun isWordChar more → Compares (part ++ more) comparator more := by
  cases h with
  | sign => exact ⟨['='], rfl, fun _ _ => .sign⟩
  | doubleSign => exact ⟨['=', '='], rfl, fun _ _ => .doubleSign⟩
  | word hw hc =>
    obtain ⟨letters, rfl, -, hword⟩ := hw.exists_part
    exact ⟨letters, rfl, fun more hm => .word (hword more hm) hc⟩

theorem Separator.exists_part (h : Separator cs rest) :
    ∃ part, cs = part ++ rest ∧
      ∀ more, EndsRun isWordChar more → Separator (part ++ more) more := by
  cases h with
  | comma hs =>
    obtain ⟨blanks, rfl, hspace⟩ := hs.exists_part
    refine ⟨blanks ++ [','], by simp, fun more _ => ?_⟩
    rw [List.append_assoc]
    exact .comma (hspace _)
  | or hs hw =>
    obtain ⟨blanks, rfl, hspace⟩ := hs.exists_part
    obtain ⟨letters, rfl, -, hword⟩ := hw.exists_part
    refine ⟨blanks ++ letters, (List.append_assoc _ _ _).symm, fun more hm => ?_⟩
    rw [List.append_assoc]
    exact .or (hspace _) (hword more hm)

theorem Values.endsRun {values : List String} (h : Values cs values rest) :
    EndsRun isWordChar cs := by
  cases h with
  | last hs hv | more hs hv _ _ => exact hs.endsRun hv.endsRun

theorem Values.exists_part {values : List String} (h : Values cs values rest) :
    ∃ part, cs = part ++ rest ∧ ∀ more, Values (part ++ more) values more := by
  induction h with
  | last hs hv =>
    obtain ⟨blanks, rfl, hspace⟩ := hs.exists_part
    obtain ⟨quoted, rfl, hquoted⟩ := hv.exists_part
    refine ⟨blanks ++ quoted, (List.append_assoc _ _ _).symm, fun more => ?_⟩
    rw [List.append_assoc]
    exact .last (hspace _) (hquoted more)
  | more hs hv hp _ ih =>
    obtain ⟨part, rfl, hvalues⟩ := ih
    obtain ⟨blanks, rfl, hspace⟩ := hs.exists_part
    obtain ⟨quoted, rfl, hquoted⟩ := hv.exists_part
    obtain ⟨separator, rfl, hseparator⟩ := hp.exists_part
    refine ⟨blanks ++ (quoted ++ (separator ++ part)), by simp, fun more => ?_⟩
    simp only [List.append_assoc]
    exact .more (hspace _) (hquoted _) (hseparator _ (hvalues more).endsRun) (hvalues more)

theorem Ending.endsRun (h : Ending cs) : EndsRun isWordChar cs := by
  cases h with
  | bare hs => exact hs.endsRun nofun
  | fullStop hs _ => exact hs.endsRun (endsRun_cons (by decide) _)

end Parts

section Rules

variable {line : RuleLine}

theorem States.exists_part (h : States cs line rest) :
    ∃ part, cs = part ++ rest ∧
      ∀ more, EndsRun isWordChar more → States (part ++ more) line more := by
  cases h with
  | valued h hs hc hp hv =>
    obtain ⟨subject, rfl, hsubject⟩ := h.exists_part
    obtain ⟨blanks, rfl, hspace⟩ := hs.exists_part
    obtain ⟨sign, rfl, hcompares⟩ := hc.exists_part
    obtain ⟨values, rfl, hvalues⟩ := hv.exists_part
    refine ⟨subject ++ (blanks ++ (sign ++ values)), by simp, fun more _ => ?_⟩
    simp only [List.append_assoc]
    exact .valued (hsubject _) (hspace _) (hcompares _ (hvalues more).endsRun) hp (hvalues more)
  | present h hs hc =>
    obtain ⟨subject, rfl, hsubject⟩ := h.exists_part
    obtain ⟨blanks, rfl, hspace⟩ := hs.exists_part
    obtain ⟨sign, rfl, hcompares⟩ := hc.exists_part
    refine ⟨subject ++ (blanks ++ sign), by simp, fun more hm => ?_⟩
    simp only [List.append_assoc]
    exact .present (hsubject _) (hspace _) (hcompares more hm)
  | bare h hs =>
    obtain ⟨subject, rfl, hsubject⟩ := h.exists_part
    obtain ⟨blanks, rfl, hspace⟩ := hs.exists_part
    refine ⟨subject ++ blanks, by simp, fun more _ => ?_⟩
    rw [List.append_assoc]
    exact .bare (hsubject _) (hspace _)

end Rules

end TallyRules.RuleLine
