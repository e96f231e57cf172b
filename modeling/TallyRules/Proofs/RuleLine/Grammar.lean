import TallyRules.RuleLine.Scan

/-! # The grammar of lines of rules

A line names a keyword, after a list marker if there is one, passes over words
up to the word `column`, and names a column between quotes. A comparison
follows, which only an unfilter may lack, with values between quotes unless it
asks for presence; a full stop may end the line. Each rule of the grammar
relates a text to what is left of it, and blank characters may stand before
each part.
-/

namespace TallyRules.RuleLine

open Text (isBlankChar isWordChar)

def Space (cs rest : List Char) : Prop :=
  ∃ blanks, cs = blanks ++ rest ∧ ∀ c ∈ blanks, isBlankChar c = true

/-- A word, which no character of a word follows. It is read without regard to case. -/
def Word (cs : List Char) (word : String) (rest : List Char) : Prop :=
  ∃ letters, cs = letters ++ rest ∧ letters ≠ [] ∧ (∀ c ∈ letters, isWordChar c = true) ∧
    (∀ c ∈ rest.head?, isWordChar c = false) ∧ Text.lower (.ofList letters) = word

inductive Marker : List Char → List Char → Prop
  | number {digits c rest} (hne : digits ≠ []) (hd : ∀ d ∈ digits, Char.isDigit d = true)
      (hc : c = '.' ∨ c = ')') : Marker (digits ++ c :: rest) rest
  | hyphen {rest} : Marker ('-' :: rest) rest
  | asterisk {rest} : Marker ('*' :: rest) rest

def keywords : List (String × Keyword) :=
  [("unfilter", .unfilter), ("filter", .filter), ("include", .filter), ("exclude", .exclude),
    ("contain", .contain), ("contains", .contain)]

def comparisons : List (String × Comparator) :=
  [("is", .equals), ("equals", .equals), ("contain", .contains), ("contains", .contains),
    ("in", .contains), ("exists", .present)]

inductive Start : List Char → Keyword → List Char → Prop
  | plain {cs a word keyword rest} (hs : Space cs a) (hw : Word a word rest)
      (hk : (word, keyword) ∈ keywords) : Start cs keyword rest
  | marked {cs a b c word keyword rest} (hs : Space cs a) (hm : Marker a b) (hs' : Space b c)
      (hw : Word c word rest) (hk : (word, keyword) ∈ keywords) : Start cs keyword rest

/-- A word that is passed over. A blank character or an opening quote ends it. -/
def Filler (cs rest : List Char) : Prop :=
  ∃ chars, cs = chars ++ rest ∧ chars ≠ [] ∧ (∀ c ∈ chars, isFillerChar c = true) ∧
    ∀ c ∈ rest.head?, isFillerChar c = false

inductive ToColumn : List Char → List Char → Prop
  | column {cs a rest} (hs : Space cs a) (hw : Word a "column" rest) : ToColumn cs rest
  | filler {cs a b rest} (hs : Space cs a) (hn : ∀ r, ¬ Word a "column" r) (hf : Filler a b)
      (h : ToColumn b rest) : ToColumn cs rest

/-- A text up to its closing quote. A backslash takes the next character with it, whatever that
is, and stands for itself unless before a straight quote or a backslash. -/
inductive Body : List Char → List Char → List Char → Prop
  | close {q rest} (hq : isClosingQuote q = true) : Body (q :: rest) [] rest
  | escaped {c cs s rest} (h : Body cs s rest) : Body ('\\' :: c :: cs) (unescape c ++ s) rest
  | plain {c cs s rest} (hb : c ≠ '\\') (hq : isClosingQuote c = false) (h : Body cs s rest) :
      Body (c :: cs) (c :: s) rest

inductive Quoted : List Char → String → List Char → Prop
  | mk {q cs s rest} (hq : isOpeningQuote q = true) (h : Body cs s rest) :
      Quoted (q :: cs) (.ofList s) rest

inductive Compares : List Char → Comparator → List Char → Prop
  | sign {rest} : Compares ('=' :: rest) .equals rest
  | doubleSign {rest} : Compares ('=' :: '=' :: rest) .equals rest
  | word {cs word comparator rest} (hw : Word cs word rest)
      (hc : (word, comparator) ∈ comparisons) : Compares cs comparator rest

inductive Separator : List Char → List Char → Prop
  | comma {cs rest} (hs : Space cs (',' :: rest)) : Separator cs rest
  | or {cs a rest} (hs : Space cs a) (hw : Word a "or" rest) : Separator cs rest

inductive Values : List Char → List String → List Char → Prop
  | last {cs a value rest} (hs : Space cs a) (hv : Quoted a value rest) : Values cs [value] rest
  | more {cs a value b c values rest} (hs : Space cs a) (hv : Quoted a value b)
      (hp : Separator b c) (h : Values c values rest) : Values cs (value :: values) rest

/-- Nothing is left but a full stop, if there is one. -/
inductive Ending : List Char → Prop
  | bare {cs} (hs : Space cs []) : Ending cs
  | fullStop {cs a} (hs : Space cs ('.' :: a)) (hs' : Space a []) : Ending cs

/-- What a line is about: its keyword and its column, which is not blank. -/
inductive Subject : List Char → Keyword → String → List Char → Prop
  | mk {cs keyword a b c column rest} (hk : Start cs keyword a) (hc : ToColumn a b)
      (hs : Space b c) (hq : Quoted c column rest) (hb : Text.isBlank column = false) :
      Subject cs keyword (Text.trim column) rest

/-- The rule is stated up to what is left. -/
inductive States : List Char → RuleLine → List Char → Prop
  | valued {cs keyword column a b comparator c values rest} (h : Subject cs keyword column a)
      (hs : Space a b) (hc : Compares b comparator c) (hp : comparator ≠ .present)
      (hv : Values c values rest) : States cs ⟨keyword, column, some comparator, values⟩ rest
  | present {cs keyword column a b rest} (h : Subject cs keyword column a) (hs : Space a b)
      (hc : Compares b .present rest) : States cs ⟨keyword, column, some .present, []⟩ rest
  | bare {cs column a rest} (h : Subject cs .unfilter column a) (hs : Space a rest) :
      States cs ⟨.unfilter, column, none, []⟩ rest

/-- The lines that state a rule. -/
inductive Derives : List Char → RuleLine → Prop
  | valued {cs keyword column a b comparator c values rest} (h : Subject cs keyword column a)
      (hs : Space a b) (hc : Compares b comparator c) (hp : comparator ≠ .present)
      (hv : Values c values rest) (he : Ending rest) :
      Derives cs ⟨keyword, column, some comparator, values⟩
  | present {cs keyword column a b rest} (h : Subject cs keyword column a) (hs : Space a b)
      (hc : Compares b .present rest) (he : Ending rest) :
      Derives cs ⟨keyword, column, some .present, []⟩
  | bare {cs column rest} (h : Subject cs .unfilter column rest) (he : Ending rest) :
      Derives cs ⟨.unfilter, column, none, []⟩

end TallyRules.RuleLine
