/-! # Blank characters

A character is blank when it has the Unicode property White_Space. Trimming
removes the blank characters at both ends of a text, and a text that trims to
nothing is blank.
-/

namespace TallyRules.Text

/-- The characters with the Unicode property White_Space. -/
def isBlankChar (c : Char) : Bool :=
  let n := c.toNat
  n == 0x20 || (0x9 ≤ n && n ≤ 0xD) || n == 0x85 || n == 0xA0 || n == 0x1680 ||
    (0x2000 ≤ n && n ≤ 0x200A) || n == 0x2028 || n == 0x2029 || n == 0x202F ||
    n == 0x205F || n == 0x3000

def skipBlank (cs : List Char) : List Char :=
  cs.dropWhile isBlankChar

@[simp]
theorem skipBlank_nil : skipBlank [] = [] := rfl

theorem skipBlank_length_le (cs : List Char) : (skipBlank cs).length ≤ cs.length :=
  (List.dropWhile_sublist isBlankChar).length_le

def trimChars (cs : List Char) : List Char :=
  (skipBlank (skipBlank cs).reverse).reverse

def trim (s : String) : String :=
  String.ofList (trimChars s.toList)

/-- Holds of a text without a character that is not blank. -/
def isBlank (s : String) : Bool :=
  s.toList.all isBlankChar

end TallyRules.Text
