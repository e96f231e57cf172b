import TallyRules.Proofs.Except
import TallyRules.Proofs.RuleLine.Quoted
import TallyRules.Proofs.RuleLine.Word

/-! # Reading lines by their grammar

The scanners accept the lines of the grammar and no others. What a scanner
could leave to the next one, a separator without a value or a comparison that
an unfilter may lack, is nothing that a line may end with. So a line states one
rule at most.
-/

namespace TallyRules.RuleLine

open Text (skipBlank)

variable {cs a b rest : List Char} {word : String}

section Comparisons

variable {comparator : Comparator}

theorem scanComparator_of_ne (h : cs.head? ≠ some '=') :
    scanComparator cs = scanWordAs comparator? cs := by
  cases cs with
  | nil => rfl
  | cons c tail =>
    rw [scanComparator]
    · rintro rest ⟨⟩
      exact h rfl
    · rintro rest ⟨⟩
      exact h rfl

theorem compares_of_scanComparator (h : scanComparator cs = some (comparator, rest)) :
    Compares cs comparator rest := by
  unfold scanComparator at h
  split at h
  · cases h
    exact .doubleSign
  · cases h
    exact .sign
  · obtain ⟨word, hw, hc⟩ := scanWordAs_eq_some_iff.mp h
    exact .word hw (comparator?_eq_some_iff.mp hc)

/-- A sign is taken for itself if no second sign follows. -/
theorem Compares.scanComparator_eq (h : Compares cs comparator rest)
    (hr : comparator ≠ .present → rest.head? ≠ some '=') :
    scanComparator cs = some (comparator, rest) := by
  cases h with
  | sign =>
    cases rest with
    | nil => rfl
    | cons c tail =>
      have hc : c ≠ '=' := fun hc => hr (by decide) (congrArg some hc)
      simp [scanComparator, hc]
  | doubleSign => rfl
  | word hw hc =>
    have hne : cs.head? ≠ some '=' := by
      obtain ⟨c, tail, rfl, hc, -⟩ := hw.exists_cons
      rintro ⟨⟩
      exact absurd hc (by decide)
    rw [scanComparator_of_ne hne]
    exact scanWordAs_eq_some_iff.mpr ⟨_, hw, comparator?_eq_some_iff.mpr hc⟩

end Comparisons

section ValueLists

variable {value : String} {values : List String}

theorem skipSeparator_eq_some_iff : skipSeparator cs = some rest ↔ Separator cs rest := by
  unfold skipSeparator
  constructor
  · intro h
    have hs := space_skipBlank cs
    split at h
    · rename_i tail ht
      cases h
      exact .comma (ht ▸ hs)
    · exact .or hs (scanThe_eq_some_iff.mp h)
  · intro h
    cases h with
    | comma hs =>
      rw [hs.skipBlank_eq]
      rfl
    | or hs hw =>
      rw [hs.skipBlank_eq, hw.skipBlank_eq]
      split
      · obtain ⟨c, tail, he, hc, -⟩ := hw.exists_cons
        cases he
        exact absurd hc (by decide)
      · exact scanThe_eq_some_iff.mpr hw

theorem scanNextValue_eq_some_iff : scanNextValue cs = some (value, rest) ↔
    ∃ a, Separator cs a ∧ scanQuoted (skipBlank a) = some (value, rest) := by
  simp only [scanNextValue, ← skipSeparator_eq_some_iff]
  exact Option.bind_eq_some_iff

theorem scanMoreValues_of_none (h : scanNextValue cs = none) : scanMoreValues cs = ([], cs) := by
  rw [scanMoreValues]
  split
  · rename_i hs
    cases h.symm.trans hs
  · rfl

theorem scanMoreValues_of_some (h : scanNextValue cs = some (value, rest)) :
    scanMoreValues cs = (value :: (scanMoreValues rest).1, (scanMoreValues rest).2) := by
  rw [scanMoreValues]
  split
  · rename_i hs
    cases h.symm.trans hs
    rfl
  · rename_i hs
    cases h.symm.trans hs

theorem Space.scanQuoted_eq (h : Space cs a) (hq : Quoted a value rest) :
    scanQuoted (skipBlank cs) = some (value, rest) := by
  rw [h.skipBlank_eq, hq.skipBlank_eq]
  exact scanQuoted_eq_some_iff.mpr hq

theorem values_scanMoreValues (hs : Space cs a) (hv : Quoted a value b) :
    Values cs (value :: (scanMoreValues b).1) (scanMoreValues b).2 := by
  fun_induction scanMoreValues b generalizing cs a value with
  | case1 b next tail hn values rest he ih =>
    obtain ⟨c, hp, hq⟩ := scanNextValue_eq_some_iff.mp hn
    rw [he] at ih
    exact .more hs hv hp (ih (space_skipBlank c) (scanQuoted_eq_some_iff.mp hq))
  | case2 b hn => exact .last hs hv

theorem values_of_scanValues (h : scanValues cs = .ok (values, rest)) : Values cs values rest := by
  unfold scanValues at h
  split at h
  · cases h
  · rename_i value b hq
    cases h
    exact values_scanMoreValues (space_skipBlank cs) (scanQuoted_eq_some_iff.mp hq)

theorem scanValues_of_scanQuoted (h : scanQuoted (skipBlank cs) = some (value, b)) :
    scanValues cs = .ok (value :: (scanMoreValues b).1, (scanMoreValues b).2) := by
  unfold scanValues
  rw [h]

theorem Values.scanValues_eq (h : Values cs values rest) (hr : scanNextValue rest = none) :
    scanValues cs = .ok (values, rest) := by
  induction h with
  | last hs hv =>
    rw [scanValues_of_scanQuoted (hs.scanQuoted_eq hv), scanMoreValues_of_none hr]
  | @more cs a value b c values rest hs hv hp hvs ih =>
    obtain ⟨next, d, hq⟩ : ∃ next d, scanQuoted (skipBlank c) = some (next, d) := by
      cases hvs with
      | last hs hv => exact ⟨_, _, hs.scanQuoted_eq hv⟩
      | more hs hv => exact ⟨_, _, hs.scanQuoted_eq hv⟩
    have hn : scanNextValue b = some (next, d) := scanNextValue_eq_some_iff.mpr ⟨c, hp, hq⟩
    have hc := ih hr
    rw [scanValues_of_scanQuoted hq] at hc
    cases hc
    rw [scanValues_of_scanQuoted (hs.scanQuoted_eq hv), scanMoreValues_of_some hn]

end ValueLists

section Endings

theorem Ending.skipBlank_cases (h : Ending cs) :
    skipBlank cs = [] ∨ ∃ tail, skipBlank cs = '.' :: tail ∧ skipBlank tail = [] := by
  cases h with
  | bare hs => exact Or.inl (space_nil_iff.mp hs)
  | fullStop hs hs' => exact Or.inr ⟨_, hs.skipBlank_eq, space_nil_iff.mp hs'⟩

theorem scanEnd_eq_ok_iff : scanEnd cs = .ok () ↔ Ending cs := by
  have hok : scanEnd cs = .ok () ↔ skipBlank (skipFullStop (skipBlank cs)) = [] := by
    unfold scanEnd
    split <;> simp_all
  rw [hok]
  constructor
  · intro h
    have hs := space_skipBlank cs
    unfold skipFullStop at h
    split at h
    · rename_i tail ht
      exact .fullStop (ht ▸ hs) (space_nil_iff.mpr h)
    · rw [Text.skipBlank_skipBlank] at h
      exact .bare (space_nil_iff.mpr h)
  · intro h
    rcases h.skipBlank_cases with he | ⟨tail, he, ht⟩
    · rw [he]
      rfl
    · rw [he]
      exact ht

theorem ending_skipBlank_iff : Ending (skipBlank cs) ↔ Ending cs := by
  rw [← scanEnd_eq_ok_iff, ← scanEnd_eq_ok_iff, scanEnd, scanEnd, Text.skipBlank_skipBlank]

theorem Ending.of_space (hs : Space cs a) (h : Ending a) : Ending cs := by
  cases h with
  | bare hs' => exact .bare (hs.trans hs')
  | fullStop hs' hs'' => exact .fullStop (hs.trans hs') hs''

/-- Neither a word nor a sign stands where a line may end. -/
theorem Ending.scanWord_eq (h : Ending cs) : scanWord (skipBlank cs) = none := by
  rcases h.skipBlank_cases with he | ⟨tail, he, -⟩ <;> rw [he] <;> rfl

theorem Ending.scanComparator_eq (h : Ending cs) : scanComparator (skipBlank cs) = none := by
  have hne : (skipBlank cs).head? ≠ some '=' := by
    rcases h.skipBlank_cases with he | ⟨tail, he, -⟩ <;> simp [he]
  rw [scanComparator_of_ne hne, scanWordAs, h.scanWord_eq]
  rfl

theorem Ending.scanNextValue_eq (h : Ending cs) : scanNextValue cs = none := by
  have hs : skipSeparator cs = none := by
    unfold skipSeparator
    split
    · rename_i tail ht
      rcases h.skipBlank_cases with he | ⟨_, he, -⟩ <;> cases ht.symm.trans he
    · rw [scanThe, h.scanWord_eq]
  rw [scanNextValue, hs]
  rfl

end Endings

section Lines

variable {keyword : Keyword} {column : String} {line : RuleLine}

theorem scanColumn_eq_ok_iff : scanColumn cs = .ok (column, rest) ↔
    ∃ text, Quoted cs text rest ∧ Text.isBlank text = false ∧ column = Text.trim text := by
  simp only [scanColumn, ← scanQuoted_eq_some_iff]
  constructor
  · intro h
    split at h
    · cases h
    · rename_i text r hq
      split at h
      · cases h
      · rename_i hb
        cases h
        exact ⟨text, hq, Bool.not_eq_true _ ▸ hb, rfl⟩
  · rintro ⟨text, hq, hb, rfl⟩
    simp [hq, hb]

theorem subject_iff : Subject cs keyword column rest ↔
    ∃ a b, scanKeyword cs = .ok (keyword, a) ∧ scanToColumn a = .ok b ∧
      scanColumn (skipBlank b) = .ok (column, rest) := by
  constructor
  · rintro ⟨hk, hc, hs, hq, hb⟩
    refine ⟨_, _, scanKeyword_eq_ok_iff.mpr hk, hc.scanToColumn_eq, ?_⟩
    rw [hs.skipBlank_eq, hq.skipBlank_eq]
    exact scanColumn_eq_ok_iff.mpr ⟨_, hq, hb, rfl⟩
  · rintro ⟨a, b, hk, hc, hq⟩
    obtain ⟨text, ht, hb, rfl⟩ := scanColumn_eq_ok_iff.mp hq
    exact .mk (scanKeyword_eq_ok_iff.mp hk) (toColumn_of_scanToColumn hc) (space_skipBlank b) ht hb

theorem Subject.skipBlank_ne_nil (h : Subject cs keyword column rest) : skipBlank cs ≠ [] := by
  obtain ⟨hk, -⟩ := h
  exact hk.skipBlank_ne_nil

theorem Derives.isBlank_eq_false {text : String} (h : Derives text.toList line) :
    Text.isBlank text = false := by
  have hne : skipBlank text.toList ≠ [] := by
    cases h with
    | valued h _ _ _ _ _ => exact h.skipBlank_ne_nil
    | present h _ _ _ => exact h.skipBlank_ne_nil
    | bare h _ => exact h.skipBlank_ne_nil
  have hall := mt Text.skipBlank_eq_nil_iff.mpr hne
  rwa [← List.all_eq_true, Bool.not_eq_true] at hall

theorem scan_eq_ok_iff : scan cs = .ok line ↔
    ∃ a b c, Subject cs line.keyword line.column a ∧
      scanComparison line.keyword (skipBlank a) = .ok (line.comparator, b) ∧
      (if takesValues line.comparator then scanValues b else .ok ([], b)) = .ok (line.values, c) ∧
      Ending c := by
  simp only [subject_iff, ← scanEnd_eq_ok_iff]
  constructor
  · intro h
    simp only [scan, bind_eq_ok_iff] at h
    obtain ⟨⟨keyword, a⟩, hk, b, hb, ⟨column, c⟩, hc, ⟨comparator, d⟩, hd, h⟩ := h
    dsimp only at h
    have hrest : ∃ values e, (if takesValues comparator then scanValues d else .ok ([], d)) =
        .ok (values, e) ∧ scanEnd e = .ok () ∧ line = ⟨keyword, column, comparator, values⟩ := by
      split at h
      · rename_i ht
        obtain ⟨⟨values, e⟩, hv, h⟩ := bind_eq_ok_iff.mp h
        obtain ⟨_, he, h⟩ := bind_eq_ok_iff.mp h
        cases h
        exact ⟨values, e, (if_pos ht).trans hv, he, rfl⟩
      · rename_i ht
        obtain ⟨⟨values, e⟩, hv, h⟩ := bind_eq_ok_iff.mp h
        obtain ⟨_, he, h⟩ := bind_eq_ok_iff.mp h
        cases h
        exact ⟨values, e, (if_neg ht).trans hv, he, rfl⟩
    obtain ⟨values, e, hv, he, rfl⟩ := hrest
    exact ⟨c, d, e, ⟨a, b, hk, hb, hc⟩, hd, hv, he⟩
  · rintro ⟨c, d, e, ⟨a, b, hk, hb, hc⟩, hd, hv, he⟩
    simp only [scan, bind_eq_ok_iff]
    refine ⟨_, hk, b, hb, _, hc, _, hd, ?_⟩
    split at hv
    · rename_i ht
      rw [if_pos ht]
      exact bind_eq_ok_iff.mpr ⟨_, hv, bind_eq_ok_iff.mpr ⟨(), he, rfl⟩⟩
    · rename_i ht
      rw [if_neg ht]
      exact bind_eq_ok_iff.mpr ⟨_, hv, bind_eq_ok_iff.mpr ⟨(), he, rfl⟩⟩

/-- A comparison and its values complete the rule, and an unfilter is complete without them. -/
theorem states_of_scan {comparator : Option Comparator} {values : List String}
    (hs : Subject cs keyword column a)
    (hc : scanComparison keyword (skipBlank a) = .ok (comparator, b))
    (hv : (if takesValues comparator then scanValues b else .ok ([], b)) = .ok (values, rest)) :
    States cs ⟨keyword, column, comparator, values⟩ rest := by
  simp only [scanComparison] at hc
  split at hc
  · rename_i found r hfound
    cases hc
    have hc := compares_of_scanComparator hfound
    cases found with
    | equals => exact .valued hs (space_skipBlank a) hc (by decide) (values_of_scanValues hv)
    | contains => exact .valued hs (space_skipBlank a) hc (by decide) (values_of_scanValues hv)
    | present =>
      cases hv
      exact .present hs (space_skipBlank a) hc
  · split at hc
    · rename_i hk
      obtain rfl : keyword = .unfilter := hk
      cases hc
      cases hv
      exact .bare hs (space_skipBlank a)
    · cases hc

theorem States.derives (h : States cs line rest) (he : Ending rest) : Derives cs line := by
  cases h with
  | valued h hs hc hp hv => exact .valued h hs hc hp hv he
  | present h hs hc => exact .present h hs hc he
  | bare h hs => exact .bare h (he.of_space hs)

theorem derives_of_scan (h : scan cs = .ok line) : Derives cs line := by
  obtain ⟨a, b, c, hs, hc, hv, he⟩ := scan_eq_ok_iff.mp h
  exact (states_of_scan hs hc hv).derives he

theorem scanComparison_of_some {comparator : Comparator}
    (h : scanComparator cs = some (comparator, rest)) :
    scanComparison keyword cs = .ok (some comparator, rest) := by
  rw [scanComparison, h]

theorem Compares.skipBlank_eq {comparator : Comparator} (h : Compares cs comparator rest) :
    skipBlank cs = cs := by
  cases h with
  | sign => rfl
  | doubleSign => rfl
  | word hw => exact hw.skipBlank_eq

theorem Values.head?_ne {values : List String} (h : Values cs values rest) :
    cs.head? ≠ some '=' := by
  have hspace : ∀ {a value b}, Space cs a → Quoted a value b → cs.head? ≠ some '=' := by
    rintro a value b ⟨blanks, rfl, hb⟩ hq
    cases blanks with
    | nil =>
      obtain ⟨hq, _⟩ := hq
      rintro ⟨⟩
      exact absurd hq (by decide)
    | cons c blanks =>
      rintro ⟨⟩
      exact absurd (hb '=' List.mem_cons_self) (by decide)
  cases h with
  | last hs hv => exact hspace hs hv
  | more hs hv => exact hspace hs hv

theorem Derives.scan_eq (h : Derives cs line) : scan cs = .ok line := by
  rw [scan_eq_ok_iff]
  cases h with
  | @valued keyword column a b comparator c values rest hsub hs hc hp hv he =>
    have ht : takesValues (some comparator) = true := by
      cases comparator <;> first | rfl | exact absurd rfl hp
    refine ⟨a, c, rest, hsub, ?_, ?_, he⟩
    · rw [hs.skipBlank_eq, hc.skipBlank_eq]
      exact scanComparison_of_some (hc.scanComparator_eq fun _ => hv.head?_ne)
    · rw [if_pos ht]
      exact hv.scanValues_eq he.scanNextValue_eq
  | @present keyword column a b rest hsub hs hc he =>
    refine ⟨a, rest, rest, hsub, ?_, rfl, he⟩
    rw [hs.skipBlank_eq, hc.skipBlank_eq]
    exact scanComparison_of_some (hc.scanComparator_eq fun hp => absurd rfl hp)
  | @bare column rest hsub he =>
    refine ⟨rest, skipBlank rest, skipBlank rest, hsub, ?_, rfl, ending_skipBlank_iff.mpr he⟩
    rw [scanComparison, he.scanComparator_eq]
    rfl

/-- The scanner accepts the lines of the grammar and gives the rule that they state, and no line
states two rules. -/
theorem scan_eq_ok_iff_derives (cs : List Char) :
    (∀ line, scan cs = .ok line ↔ Derives cs line) ∧
      ∀ line other, Derives cs line → Derives cs other → line = other := by
  refine ⟨fun line => ⟨derives_of_scan, Derives.scan_eq⟩, fun line other h h' => ?_⟩
  exact Except.ok.inj (h.scan_eq.symm.trans h'.scan_eq)

end Lines

end TallyRules.RuleLine
