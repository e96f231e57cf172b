import Mathlib.Data.List.DropRight
import TallyRules.Proofs.List
import TallyRules.Text.Blank
import TallyRules.Text.WordChar

/-! # Blank characters and trimming

No blank character belongs to a word. What trimming leaves neither begins nor
ends with a blank character, so trimming it again changes nothing, and it is
blank only if nothing is left. What is removed are blank characters at both ends,
and blank characters that are put there do not matter.
-/

namespace TallyRules.Text

variable {c : Char} {cs before after : List Char}

def blankCodes : List Nat :=
  [0x9, 0xA, 0xB, 0xC, 0xD, 0x20, 0x85, 0xA0, 0x1680, 0x2000, 0x2001, 0x2002, 0x2003, 0x2004,
    0x2005, 0x2006, 0x2007, 0x2008, 0x2009, 0x200A, 0x2028, 0x2029, 0x202F, 0x205F, 0x3000]

theorem toNat_mem_blankCodes (h : isBlankChar c = true) : c.toNat ∈ blankCodes := by
  simp only [isBlankChar, Bool.or_eq_true, Bool.and_eq_true, beq_iff_eq, decide_eq_true_eq] at h
  simp only [blankCodes, List.mem_cons, List.not_mem_nil, or_false]
  omega

theorem isBlankChar_eq_false_of_isWordChar (h : isWordChar c = true) : isBlankChar c = false := by
  have hall : ∀ n ∈ blankCodes, isWordChar (Char.ofNat n) = false := by decide +kernel
  by_contra hb
  have hn := hall _ (toNat_mem_blankCodes (Bool.not_eq_false _ ▸ hb))
  rw [Char.ofNat_toNat, h] at hn
  cases hn

theorem isBlankChar_eq_false_of_isDigit (h : c.isDigit = true) : isBlankChar c = false := by
  have ha : c.isAlphanum = true := by simp [Char.isAlphanum, h]
  exact isBlankChar_eq_false_of_isWordChar (by simp [isWordChar, isAlphanumeric_of_isAlphanum ha])

theorem skipBlank_cons (h : isBlankChar c = false) (cs : List Char) :
    skipBlank (c :: cs) = c :: cs := by
  simp [skipBlank, h]

theorem skipBlank_skipBlank (cs : List Char) : skipBlank (skipBlank cs) = skipBlank cs :=
  List.dropWhile_idempotent _ _

theorem skipBlank_eq_nil_iff : skipBlank cs = [] ↔ ∀ c ∈ cs, isBlankChar c = true :=
  List.dropWhile_eq_nil_iff

theorem trimChars_eq (cs : List Char) : trimChars cs = (skipBlank cs).rdropWhile isBlankChar := rfl

theorem trimChars_eq_nil_iff : trimChars cs = [] ↔ ∀ c ∈ cs, isBlankChar c = true := by
  rw [trimChars_eq, List.rdropWhile_eq_nil_iff, ← skipBlank_eq_nil_iff, ← skipBlank_eq_nil_iff]
  rw [skipBlank_skipBlank]

theorem skipBlank_of_forall (h : ∀ c ∈ cs, isBlankChar c = false) : skipBlank cs = cs := by
  cases cs with
  | nil => rfl
  | cons c cs => exact skipBlank_cons (h c List.mem_cons_self) cs

theorem trimChars_of_forall (h : ∀ c ∈ cs, isBlankChar c = false) : trimChars cs = cs := by
  have hr : ∀ c ∈ cs.reverse, isBlankChar c = false := fun c hc => h c (List.mem_reverse.mp hc)
  rw [trimChars, skipBlank_of_forall h, skipBlank_of_forall hr, List.reverse_reverse]

theorem skipBlank_trimChars (cs : List Char) : skipBlank (trimChars cs) = trimChars cs := by
  obtain ⟨tail, ht⟩ := List.rdropWhile_prefix isBlankChar (l := skipBlank cs)
  rw [← trimChars_eq] at ht
  cases hc : trimChars cs with
  | nil => rfl
  | cons c rest =>
    rw [hc] at ht
    have hh : (skipBlank cs).head? = some c := ht ▸ rfl
    exact skipBlank_cons (head?_dropWhile isBlankChar cs c hh) rest

@[simp]
theorem trimChars_trimChars (cs : List Char) : trimChars (trimChars cs) = trimChars cs := by
  rw [trimChars_eq (trimChars cs), skipBlank_trimChars, trimChars_eq cs,
    List.rdropWhile_idempotent]

@[simp]
theorem trim_trim (s : String) : trim (trim s) = trim s := by
  simp [trim]

theorem isBlank_iff {s : String} : isBlank s = true ↔ trim s = "" := by
  rw [isBlank, List.all_eq_true, ← trimChars_eq_nil_iff, trim, ← String.toList_inj,
    String.toList_ofList, String.toList_empty]

theorem trimChars_pad (hb : ∀ c ∈ before, isBlankChar c = true)
    (ha : ∀ c ∈ after, isBlankChar c = true) : trimChars (before ++ cs ++ after) = trimChars cs := by
  by_cases hcs : ∀ c ∈ cs, isBlankChar c = true
  · have hall : ∀ c ∈ before ++ cs ++ after, isBlankChar c = true := by
      simp only [List.mem_append]
      rintro c ((h | h) | h)
      · exact hb c h
      · exact hcs c h
      · exact ha c h
    rw [trimChars_eq_nil_iff.mpr hall, trimChars_eq_nil_iff.mpr hcs]
  · have hstart : skipBlank (before ++ cs ++ after) = skipBlank cs ++ after := by
      rw [List.append_assoc, skipBlank, List.dropWhile_append_of_pos hb, List.dropWhile_append,
        if_neg (by rwa [List.isEmpty_iff, ← skipBlank, skipBlank_eq_nil_iff]), ← skipBlank]
    have hend : skipBlank (after.reverse ++ (skipBlank cs).reverse) =
        skipBlank (skipBlank cs).reverse :=
      List.dropWhile_append_of_pos fun c hc => ha c (List.mem_reverse.mp hc)
    rw [trimChars, hstart, List.reverse_append, hend, trimChars]

theorem exists_pad_trimChars (cs : List Char) : ∃ before after,
    cs = before ++ trimChars cs ++ after ∧ (∀ c ∈ before, isBlankChar c = true) ∧
      ∀ c ∈ after, isBlankChar c = true := by
  refine ⟨cs.takeWhile isBlankChar, (skipBlank cs).rtakeWhile isBlankChar, ?_,
    fun _ => List.mem_takeWhile_imp, fun _ => List.mem_rtakeWhile_imp⟩
  rw [List.append_assoc, trimChars_eq, List.rdropWhile_append_rtakeWhile, skipBlank,
    List.takeWhile_append_dropWhile]

theorem trim_pad {before after : String} (hb : isBlank before = true) (ha : isBlank after = true)
    (s : String) : trim (before ++ s ++ after) = trim s := by
  rw [trim, String.toList_append, String.toList_append,
    trimChars_pad (List.all_eq_true.mp hb) (List.all_eq_true.mp ha), trim]

theorem isBlank_eq_false_of_mem {s : String} (hm : c ∈ s.toList) (h : isBlankChar c = false) :
    isBlank s = false :=
  List.all_eq_false.mpr ⟨c, hm, by simp [h]⟩

theorem isBlank_trim_iff {s : String} : isBlank (trim s) = true ↔ isBlank s = true := by
  rw [isBlank_iff, isBlank_iff, trim_trim]

/-- The text is not blank, and begins and ends with other characters than blank ones. -/
structure IsTrimmed (s : String) : Prop where
  not_blank : isBlank s = false
  trim_eq : trim s = s

theorem isTrimmed_trim {s : String} (h : isBlank s = false) : IsTrimmed (trim s) where
  not_blank := by rwa [← Bool.not_eq_true, isBlank_trim_iff, Bool.not_eq_true]
  trim_eq := trim_trim s

theorem isTrimmed_of_forall {s : String} (hne : s.toList ≠ [])
    (h : ∀ c ∈ s.toList, isBlankChar c = false) : IsTrimmed s where
  not_blank := by
    obtain ⟨c, hc⟩ := List.exists_mem_of_ne_nil _ hne
    exact isBlank_eq_false_of_mem hc (h c hc)
  trim_eq := by rw [trim, trimChars_of_forall h, String.ofList_toList]

theorem IsTrimmed.ne_empty {s : String} (h : IsTrimmed s) : s ≠ "" := by
  rintro rfl
  exact absurd h.not_blank (by decide)

theorem mem_of_mem_trim {s : String} (h : c ∈ (trim s).toList) : c ∈ s.toList := by
  obtain ⟨before, after, hs, -, -⟩ := exists_pad_trimChars s.toList
  rw [trim, String.toList_ofList] at h
  rw [hs]
  exact List.mem_append_left after (List.mem_append_right before h)

end TallyRules.Text
