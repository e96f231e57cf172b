import TallyRules.RuleLine.Basic
import TallyRules.Text.AsciiCase
import TallyRules.Text.Blank
import TallyRules.Text.ByteLength
import TallyRules.Text.WordChar

/-! # Reading lines of rules

A line is read from the left by scanners, which give what they have read and
what is left. Words are taken as long as possible and compared without regard
to case. Between the keyword and the word `column` other words are passed
over; a separator between values only counts with a value after it.
-/

namespace TallyRules.RuleLine

open Text (isBlankChar isWordChar skipBlank)

/-- Where a line stops being a rule: what is left of it there, and what could follow. -/
structure Stop where
  rest : List Char
  expected : Expectation
  deriving DecidableEq, Repr

def scanWord (cs : List Char) : Option (String × List Char) :=
  match cs.takeWhile isWordChar with
  | [] => none
  | word => some (Text.lower (String.ofList word), cs.dropWhile isWordChar)

def scanWordAs {α : Type} (meaning : String → Option α) (cs : List Char) :
    Option (α × List Char) := do
  let (word, rest) ← scanWord cs
  return (← meaning word, rest)

def scanThe (word : String) (cs : List Char) : Option (List Char) :=
  match scanWord cs with
  | some (found, rest) => if found = word then some rest else none
  | none => none

/-- Passes over a list marker, if there is one: digits with a point or a parenthesis, a hyphen or
an asterisk. -/
def skipMarker (cs : List Char) : List Char :=
  match cs.takeWhile Char.isDigit, cs.dropWhile Char.isDigit with
  | _ :: _, '.' :: rest => rest
  | _ :: _, ')' :: rest => rest
  | [], '-' :: rest => rest
  | [], '*' :: rest => rest
  | _, _ => cs

def isOpeningQuote (c : Char) : Bool :=
  c = '"' || c = '\u201c'

def isClosingQuote (c : Char) : Bool :=
  c = '"' || c = '\u201d'

/-- What a character after a backslash stands for. -/
def unescape (c : Char) : List Char :=
  if c = '"' ∨ c = '\\' then [c] else ['\\', c]

/-- A quoted text after its opening quote. -/
def scanQuotedRest : List Char → Option (List Char × List Char)
  | [] => none
  | '\\' :: [] => none
  | '\\' :: c :: cs => (scanQuotedRest cs).map fun (s, rest) => (unescape c ++ s, rest)
  | c :: cs =>
    if isClosingQuote c then some ([], cs)
    else (scanQuotedRest cs).map fun (s, rest) => (c :: s, rest)

def scanQuoted : List Char → Option (String × List Char)
  | [] => none
  | c :: cs =>
    if isOpeningQuote c then
      (scanQuotedRest cs).map fun (s, rest) => (String.ofList s, rest)
    else none

/-- Where a quoted text cannot be read: at its place, or at the end if it is not closed. -/
def quotedStop (cs : List Char) (expected : Expectation) : Stop :=
  match cs with
  | [] => ⟨[], expected⟩
  | c :: _ => if isOpeningQuote c then ⟨[], expected⟩ else ⟨cs, expected⟩

theorem scanQuotedRest_length_lt {cs s rest : List Char}
    (h : scanQuotedRest cs = some (s, rest)) : rest.length < cs.length := by
  fun_induction scanQuotedRest cs generalizing s with
  | case1 => simp at h
  | case2 => simp at h
  | case3 c cs ih =>
    obtain ⟨⟨t, r⟩, ht, hr⟩ := Option.map_eq_some_iff.1 h
    simp only [Prod.mk.injEq] at hr
    have := ih (hr.2 ▸ ht)
    simp only [List.length_cons]
    omega
  | case4 => simp at h; simp [h.2]
  | case5 c cs _ _ _ ih =>
    obtain ⟨⟨t, r⟩, ht, hr⟩ := Option.map_eq_some_iff.1 h
    simp only [Prod.mk.injEq] at hr
    have := ih (hr.2 ▸ ht)
    simp only [List.length_cons]
    omega

theorem scanQuoted_length_lt {cs rest : List Char} {s : String}
    (h : scanQuoted cs = some (s, rest)) : rest.length < cs.length := by
  cases cs with
  | nil => simp [scanQuoted] at h
  | cons c cs =>
    simp only [scanQuoted] at h
    split at h
    · obtain ⟨⟨t, r⟩, ht, hr⟩ := Option.map_eq_some_iff.1 h
      simp only [Prod.mk.injEq] at hr
      have := scanQuotedRest_length_lt (hr.2 ▸ ht)
      simp only [List.length_cons]
      omega
    · simp at h

/-- A character of a word that is passed over. -/
def isFillerChar (c : Char) : Bool :=
  !isBlankChar c && !isOpeningQuote c

def skipFiller (cs : List Char) : Option (List Char) :=
  match skipBlank cs with
  | [] => none
  | c :: rest => if isFillerChar c then some (rest.dropWhile isFillerChar) else none

theorem skipFiller_length_lt {cs rest : List Char} (h : skipFiller cs = some rest) :
    rest.length < cs.length := by
  have hle := Text.skipBlank_length_le cs
  unfold skipFiller at h
  split at h
  · simp at h
  · rename_i c tail heq
    split at h
    · obtain rfl := Option.some.inj h
      have := (List.dropWhile_sublist isFillerChar (l := tail)).length_le
      rw [heq, List.length_cons] at hle
      omega
    · simp at h

/-- What is left after the word `column`, the first after any other words. -/
def scanToColumn (cs : List Char) : Except Stop (List Char) :=
  match scanThe "column" (skipBlank cs) with
  | some rest => .ok rest
  | none =>
    match _h : skipFiller cs with
    | some rest => scanToColumn rest
    | none => .error ⟨skipBlank cs, .columnWord⟩
termination_by cs.length
decreasing_by exact skipFiller_length_lt ‹_›

/-- A quoted column that is not blank. -/
def scanColumn (cs : List Char) : Except Stop (String × List Char) :=
  match scanQuoted cs with
  | none => .error (quotedStop cs .column)
  | some (column, rest) =>
    if Text.isBlank column then .error ⟨cs, .column⟩ else .ok (Text.trim column, rest)

def scanComparator : List Char → Option (Comparator × List Char)
  | '=' :: '=' :: rest => some (.equals, rest)
  | '=' :: rest => some (.equals, rest)
  | cs => scanWordAs comparator? cs

def skipSeparator (cs : List Char) : Option (List Char) :=
  match skipBlank cs with
  | ',' :: rest => some rest
  | rest => scanThe "or" rest

/-- A value with the separator before it. -/
def scanNextValue (cs : List Char) : Option (String × List Char) := do
  let rest ← skipSeparator cs
  scanQuoted (skipBlank rest)

theorem scanThe_length_le {word : String} {cs rest : List Char}
    (h : scanThe word cs = some rest) : rest.length ≤ cs.length := by
  have hle := (List.dropWhile_sublist isWordChar (l := cs)).length_le
  simp only [scanThe, scanWord] at h
  split at h
  · rename_i heq
    split at heq
    · simp at heq
    · split at h
      · grind
      · simp at h
  · simp at h

theorem skipSeparator_length_le {cs rest : List Char} (h : skipSeparator cs = some rest) :
    rest.length ≤ cs.length := by
  have hle := Text.skipBlank_length_le cs
  unfold skipSeparator at h
  split at h
  · rename_i heq
    obtain rfl := Option.some.inj h
    rw [heq, List.length_cons] at hle
    omega
  · exact Nat.le_trans (scanThe_length_le h) hle

theorem scanNextValue_length_lt {cs rest : List Char} {value : String}
    (h : scanNextValue cs = some (value, rest)) : rest.length < cs.length := by
  obtain ⟨tail, ht, hv⟩ := Option.bind_eq_some_iff.1 h
  have := scanQuoted_length_lt hv
  have := Text.skipBlank_length_le tail
  have := skipSeparator_length_le ht
  omega

def scanMoreValues (cs : List Char) : List String × List Char :=
  match _h : scanNextValue cs with
  | some (value, rest) =>
    let (values, rest) := scanMoreValues rest
    (value :: values, rest)
  | none => ([], cs)
termination_by cs.length
decreasing_by exact scanNextValue_length_lt ‹_›

def scanValues (cs : List Char) : Except Stop (List String × List Char) :=
  match scanQuoted (skipBlank cs) with
  | none => .error (quotedStop (skipBlank cs) .value)
  | some (value, rest) =>
    let (values, rest) := scanMoreValues rest
    .ok (value :: values, rest)

def scanKeyword (cs : List Char) : Except Stop (Keyword × List Char) :=
  let cs := skipBlank (skipMarker (skipBlank cs))
  match scanWordAs keyword? cs with
  | some result => .ok result
  | none => .error ⟨cs, .keyword⟩

/-- The comparison of a line, which only an unfilter may lack. -/
def scanComparison (keyword : Keyword) (cs : List Char) :
    Except Stop (Option Comparator × List Char) :=
  match scanComparator cs with
  | some (comparator, rest) => .ok (some comparator, rest)
  | none => if keyword = .unfilter then .ok (none, cs) else .error ⟨cs, .comparator⟩

def skipFullStop : List Char → List Char
  | '.' :: rest => rest
  | cs => cs

/-- Nothing is left but a full stop and blank characters. -/
def scanEnd (cs : List Char) : Except Stop Unit :=
  match skipBlank (skipFullStop (skipBlank cs)) with
  | [] => .ok ()
  | rest => .error ⟨rest, .lineEnd⟩

def scan (cs : List Char) : Except Stop RuleLine := do
  let (keyword, cs) ← scanKeyword cs
  let cs ← scanToColumn cs
  let (column, cs) ← scanColumn (skipBlank cs)
  let (comparator, cs) ← scanComparison keyword (skipBlank cs)
  let (values, cs) ← if takesValues comparator then scanValues cs else .ok ([], cs)
  scanEnd cs
  return ⟨keyword, column, comparator, values⟩

/-- The wording of a stop: the line, a mark under the place, and what could follow there. The mark
stands as many spaces to the right as bytes come before the place. -/
def Stop.message (line : String) (stop : Stop) : String :=
  let offset := Text.byteLength line.toList - Text.byteLength stop.rest
  line ++ "\n" ++ String.ofList (List.replicate offset ' ') ++ "^\n" ++ stop.expected.phrase

end TallyRules.RuleLine
