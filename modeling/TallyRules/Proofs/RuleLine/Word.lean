import TallyRules.Proofs.RuleLine.Grammar
import TallyRules.Proofs.Text.Case

/-! # The words of a line

Each part of a line begins with a character that is not blank, so the blank
characters before it are told apart from it. A word ends where it must, and no
keyword begins with a list marker; so the scanners of keywords and of the words
up to `column` read what the grammar reads.
-/

namespace TallyRules.RuleLine

open Text (isBlankChar isWordChar skipBlank)

variable {cs a b rest : List Char} {word : String}

theorem space_skipBlank (cs : List Char) : Space cs (skipBlank cs) :=
  ⟨cs.takeWhile isBlankChar, List.takeWhile_append_dropWhile.symm,
    fun _ hc => List.mem_takeWhile_imp hc⟩

theorem Space.trans (h : Space cs a) (h' : Space a rest) : Space cs rest := by
  obtain ⟨blanks, rfl, hb⟩ := h
  obtain ⟨blanks', rfl, hb'⟩ := h'
  refine ⟨blanks ++ blanks', (List.append_assoc _ _ _).symm, fun c hc => ?_⟩
  rcases List.mem_append.mp hc with hc | hc
  · exact hb c hc
  · exact hb' c hc

theorem Space.skipBlank_eq (h : Space cs rest) : skipBlank cs = skipBlank rest := by
  obtain ⟨blanks, rfl, hb⟩ := h
  exact List.dropWhile_append_of_pos hb

theorem space_nil_iff : Space cs [] ↔ skipBlank cs = [] := by
  constructor
  · intro h
    exact h.skipBlank_eq
  · intro h
    exact h ▸ space_skipBlank cs

theorem Word.exists_cons (h : Word cs word rest) :
    ∃ c tail, cs = c :: tail ∧ isWordChar c = true ∧ word.toList.head? = some c.toLower := by
  obtain ⟨letters, rfl, hne, hl, -, rfl⟩ := h
  cases letters with
  | nil => exact absurd rfl hne
  | cons c letters => exact ⟨c, letters ++ rest, rfl, hl c List.mem_cons_self, by simp [Text.lower]⟩

theorem Word.skipBlank_eq (h : Word cs word rest) : skipBlank cs = cs := by
  obtain ⟨c, tail, rfl, hc, -⟩ := h.exists_cons
  exact Text.skipBlank_cons (Text.isBlankChar_eq_false_of_isWordChar hc) tail

theorem scanWord_eq_some_iff : scanWord cs = some (word, rest) ↔ Word cs word rest := by
  constructor
  · intro h
    unfold scanWord at h
    split at h
    · cases h
    · rename_i hne
      cases h
      refine ⟨cs.takeWhile isWordChar, List.takeWhile_append_dropWhile.symm, hne,
        fun c hc => List.mem_takeWhile_imp hc, head?_dropWhile isWordChar cs, rfl⟩
  · rintro ⟨letters, rfl, hne, hl, hr, rfl⟩
    unfold scanWord
    rw [takeWhile_append hl hr, dropWhile_append hl hr]
    cases letters with
    | nil => exact absurd rfl hne
    | cons c letters => rfl

theorem scanWordAs_eq_some_iff {α : Type} {meaning : String → Option α} {x : α} :
    scanWordAs meaning cs = some (x, rest) ↔ ∃ word, Word cs word rest ∧ meaning word = some x := by
  simp only [scanWordAs, ← scanWord_eq_some_iff, Option.bind_eq_bind, Option.bind_eq_some_iff,
    Option.pure_def, Option.some.injEq, Prod.mk.injEq, Prod.exists]
  constructor
  · rintro ⟨word, _, hw, y, hm, rfl, rfl⟩
    exact ⟨word, hw, hm⟩
  · rintro ⟨word, hw, hm⟩
    exact ⟨word, rest, hw, x, hm, rfl, rfl⟩

theorem scanThe_eq_some_iff : scanThe word cs = some rest ↔ Word cs word rest := by
  rw [← scanWord_eq_some_iff]
  unfold scanThe
  cases scanWord cs with
  | none => simp
  | some found =>
    obtain ⟨other, r⟩ := found
    by_cases h : other = word <;> simp [h]

theorem keyword?_eq_some_iff {keyword : Keyword} :
    keyword? word = some keyword ↔ (word, keyword) ∈ keywords := by
  unfold keyword? keywords
  split <;> simp_all [eq_comm]

theorem comparator?_eq_some_iff {comparator : Comparator} :
    comparator? word = some comparator ↔ (word, comparator) ∈ comparisons := by
  unfold comparator? comparisons
  split <;> simp_all [eq_comm]

theorem Marker.exists_cons (h : Marker a b) :
    ∃ c tail, a = c :: tail ∧ (c.isDigit = true ∨ c = '-' ∨ c = '*') := by
  cases h with
  | @number digits c _ hne hd _ =>
    cases digits with
    | nil => exact absurd rfl hne
    | cons d digits => exact ⟨d, digits ++ c :: b, rfl, Or.inl (hd d List.mem_cons_self)⟩
  | hyphen => exact ⟨'-', b, rfl, Or.inr (Or.inl rfl)⟩
  | asterisk => exact ⟨'*', b, rfl, Or.inr (Or.inr rfl)⟩

theorem Marker.skipBlank_eq (h : Marker a b) : skipBlank a = a := by
  obtain ⟨c, tail, rfl, hd | rfl | rfl⟩ := h.exists_cons
  · exact Text.skipBlank_cons (Text.isBlankChar_eq_false_of_isDigit hd) tail
  · rfl
  · rfl

theorem Marker.skipMarker_eq (h : Marker a b) : skipMarker a = b := by
  cases h with
  | @number digits c rest hne hd hc =>
    have hc' : ∀ x ∈ (c :: b).head?, x.isDigit = false := by
      rintro _ ⟨⟩
      rcases hc with rfl | rfl <;> rfl
    unfold skipMarker
    rw [takeWhile_append hd hc', dropWhile_append hd hc']
    cases digits with
    | nil => exact absurd rfl hne
    | cons d digits => rcases hc with rfl | rfl <;> rfl
  | hyphen => rfl
  | asterisk => rfl

theorem skipMarker_cases (cs : List Char) : skipMarker cs = cs ∨ Marker cs (skipMarker cs) := by
  have happ : cs.takeWhile Char.isDigit ++ cs.dropWhile Char.isDigit = cs :=
    List.takeWhile_append_dropWhile
  have hd : ∀ d ∈ cs.takeWhile Char.isDigit, d.isDigit = true :=
    fun _ hd => List.mem_takeWhile_imp hd
  unfold skipMarker
  split
  · rename_i ht hr
    rw [ht, hr] at happ
    rw [ht] at hd
    exact Or.inr (happ ▸ .number (List.cons_ne_nil _ _) hd (Or.inl rfl))
  · rename_i ht hr
    rw [ht, hr] at happ
    rw [ht] at hd
    exact Or.inr (happ ▸ .number (List.cons_ne_nil _ _) hd (Or.inr rfl))
  · rename_i ht hr
    rw [ht, hr] at happ
    exact Or.inr (happ ▸ .hyphen)
  · rename_i ht hr
    rw [ht, hr] at happ
    exact Or.inr (happ ▸ .asterisk)
  · exact Or.inl rfl

theorem skipMarker_of_word {keyword : Keyword} (h : Word cs word rest)
    (hk : (word, keyword) ∈ keywords) : skipMarker cs = cs := by
  have hfirst : keywords.all (fun entry => entry.1.toList.head?.all fun c =>
      !c.isDigit && c != '-' && c != '*') = true := by decide
  obtain ⟨c, tail, rfl, -, hc⟩ := h.exists_cons
  have hnot := List.all_eq_true.mp hfirst _ hk
  simp only [hc, Option.all_some, Bool.and_eq_true, Bool.not_eq_true', bne_iff_ne] at hnot
  obtain ⟨⟨hd, hh⟩, ha⟩ := hnot
  refine (skipMarker_cases (c :: tail)).resolve_right fun hm => ?_
  obtain ⟨_, _, he, hmark⟩ := hm.exists_cons
  cases he
  rcases hmark with hcd | rfl | rfl
  · rw [Text.toLower_of_isDigit hcd, hcd] at hd
    cases hd
  · exact hh rfl
  · exact ha rfl

theorem scanKeyword_eq_ok_iff {keyword : Keyword} :
    scanKeyword cs = .ok (keyword, rest) ↔ Start cs keyword rest := by
  constructor
  · intro h
    simp only [scanKeyword] at h
    split at h
    · rename_i result hr
      cases h
      obtain ⟨word, hw, hk⟩ := scanWordAs_eq_some_iff.mp hr
      rw [keyword?_eq_some_iff] at hk
      rcases skipMarker_cases (skipBlank cs) with he | hm
      · rw [he] at hw
        have hs := space_skipBlank cs
        rw [Text.skipBlank_skipBlank] at hw
        exact .plain hs hw hk
      · exact .marked (space_skipBlank cs) hm (space_skipBlank _) hw hk
    · cases h
  · intro h
    have hword : ∀ {c word}, Word c word rest → (word, keyword) ∈ keywords →
        skipBlank (skipMarker (skipBlank cs)) = c →
        scanKeyword cs = .ok (keyword, rest) := by
      intro c word hw hk he
      have hr : scanWordAs keyword? c = some (keyword, rest) :=
        scanWordAs_eq_some_iff.mpr ⟨word, hw, keyword?_eq_some_iff.mpr hk⟩
      simp only [scanKeyword, he, hr]
    cases h with
    | plain hs hw hk =>
      refine hword hw hk ?_
      rw [hs.skipBlank_eq, hw.skipBlank_eq, skipMarker_of_word hw hk, hw.skipBlank_eq]
    | marked hs hm hs' hw hk =>
      refine hword hw hk ?_
      rw [hs.skipBlank_eq, hm.skipBlank_eq, hm.skipMarker_eq, hs'.skipBlank_eq, hw.skipBlank_eq]

theorem Start.skipBlank_ne_nil {keyword : Keyword} (h : Start cs keyword rest) :
    skipBlank cs ≠ [] := by
  cases h with
  | plain hs hw _ =>
    obtain ⟨c, tail, rfl, -⟩ := hw.exists_cons
    rw [hs.skipBlank_eq, hw.skipBlank_eq]
    exact List.cons_ne_nil c tail
  | marked hs hm _ _ _ =>
    obtain ⟨c, tail, rfl, -⟩ := hm.exists_cons
    rw [hs.skipBlank_eq, hm.skipBlank_eq]
    exact List.cons_ne_nil c tail

theorem Filler.skipBlank_eq (h : Filler a b) : skipBlank a = a := by
  obtain ⟨chars, rfl, hne, hf, -⟩ := h
  cases chars with
  | nil => exact absurd rfl hne
  | cons c chars =>
    have hc := hf c List.mem_cons_self
    simp only [isFillerChar, Bool.and_eq_true, Bool.not_eq_true'] at hc
    exact Text.skipBlank_cons hc.1 _

theorem skipFiller_eq_some_iff : skipFiller cs = some rest ↔ Filler (skipBlank cs) rest := by
  unfold skipFiller
  constructor
  · intro h
    split at h
    · cases h
    · rename_i c tail hs
      split at h
      · rename_i hc
        cases h
        refine ⟨c :: tail.takeWhile isFillerChar, ?_, List.cons_ne_nil _ _, ?_,
          head?_dropWhile isFillerChar tail⟩
        · rw [hs, List.cons_append, List.takeWhile_append_dropWhile]
        · intro d hd
          rcases List.mem_cons.mp hd with rfl | hd
          · exact hc
          · exact List.mem_takeWhile_imp hd
      · cases h
  · rintro ⟨chars, he, hne, hf, hr⟩
    cases chars with
    | nil => exact absurd rfl hne
    | cons c chars =>
      rw [he]
      simp only [List.cons_append, hf c List.mem_cons_self, if_true]
      rw [dropWhile_append (fun d hd => hf d (List.mem_cons_of_mem c hd)) hr]

theorem toColumn_of_scanToColumn (h : scanToColumn cs = .ok rest) : ToColumn cs rest := by
  fun_induction scanToColumn cs with
  | case1 cs rest' hw =>
    cases h
    exact .column (space_skipBlank cs) (scanThe_eq_some_iff.mp hw)
  | case2 cs hn tail hf ih =>
    refine .filler (space_skipBlank cs) (fun r hr => ?_) (skipFiller_eq_some_iff.mp hf) (ih h)
    rw [scanThe_eq_some_iff.mpr hr] at hn
    cases hn
  | case3 => cases h

theorem ToColumn.scanToColumn_eq (h : ToColumn cs rest) : scanToColumn cs = .ok rest := by
  induction h with
  | column hs hw =>
    unfold scanToColumn
    rw [hs.skipBlank_eq, hw.skipBlank_eq, scanThe_eq_some_iff.mpr hw]
  | @filler cs a b rest hs hn hf _ ih =>
    have ha : skipBlank cs = a := hs.skipBlank_eq.trans hf.skipBlank_eq
    have hno : scanThe "column" a = none := by
      rw [Option.eq_none_iff_forall_ne_some]
      exact fun r hr => hn r (scanThe_eq_some_iff.mp hr)
    have hskip : skipFiller cs = some b := skipFiller_eq_some_iff.mpr (ha ▸ hf)
    rw [scanToColumn, ha, hno]
    dsimp only
    split
    · rename_i tail ht
      obtain rfl : b = tail := Option.some.inj (hskip.symm.trans ht)
      exact ih
    · rename_i ht
      cases hskip.symm.trans ht

end TallyRules.RuleLine
