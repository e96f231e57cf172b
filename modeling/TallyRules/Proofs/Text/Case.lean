import TallyRules.Proofs.Text.Blank
import TallyRules.Text.AsciiCase

/-! # Letter case and blank characters

A letter and its small letter belong to words, and every other character is its own small letter. So
it does not matter whether a text is trimmed or put into small letters first.
-/

namespace TallyRules.Text

variable {c : Char}

theorem toLower_cases (c : Char) :
    c.toLower = c ∨ isWordChar c = true ∧ isWordChar c.toLower = true := by
  by_cases hu : c.val ≥ 'A'.val ∧ c.val ≤ 'Z'.val
  · have hall : ∀ n < 91, 65 ≤ n →
        isWordChar (Char.ofNat n) = true ∧ isWordChar (Char.ofNat n).toLower = true := by
      decide +kernel
    have hc := hall c.toNat (Nat.lt_succ_of_le (UInt32.le_iff_toNat_le.mp hu.2))
      (UInt32.le_iff_toNat_le.mp hu.1)
    rw [Char.ofNat_toNat] at hc
    exact .inr hc
  · exact .inl (dif_neg hu)

theorem toLower_of_isDigit (h : c.isDigit = true) : c.toLower = c := by
  unfold Char.toLower
  refine dif_neg fun hu => ?_
  simp only [Char.isDigit, Bool.and_eq_true, decide_eq_true_eq] at h
  exact absurd (UInt32.le_trans hu.1 h.2) (by decide)

theorem isBlankChar_toLower (c : Char) : isBlankChar c.toLower = isBlankChar c := by
  rcases toLower_cases c with h | ⟨h, hl⟩
  · rw [h]
  · rw [isBlankChar_eq_false_of_isWordChar h, isBlankChar_eq_false_of_isWordChar hl]

theorem isWordChar_of_toLower (h : isWordChar c.toLower = true) : isWordChar c = true := by
  rcases toLower_cases c with hc | ⟨hc, -⟩
  · rwa [hc] at h
  · exact hc

theorem skipBlank_map_toLower (cs : List Char) :
    skipBlank (cs.map Char.toLower) = (skipBlank cs).map Char.toLower := by
  rw [skipBlank, List.dropWhile_map, skipBlank]
  congr 2
  exact funext isBlankChar_toLower

theorem trim_lower (s : String) : trim (lower s) = lower (trim s) := by
  simp only [trim, lower, trimChars, String.toList_ofList, skipBlank_map_toLower,
    ← List.map_reverse]

end TallyRules.Text
