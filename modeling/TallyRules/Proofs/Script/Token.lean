import TallyRules.Proofs.Number.Numeral
import TallyRules.Script.Expr

/-! # Tokens of scripts

A script is read as a list of tokens, each as long as it can be. Between
quotation marks a backslash stands before a quotation mark or a backslash, and
before nothing else. A numeral with a fraction or a power of ten is a
floating-point number, and one that ends in `L` is a long integer.
-/

namespace TallyRules.Script

open Json.Numeral (scan valueOf Stops WellFormed IsDigits wellFormed_integer toList_toString_nat
  toList_toString_int)

inductive Token
  | word (s : String)
  | integer (n : Nat)
  | long (n : Int64)
  | double (x : Binary64)
  | string (s : String)
  | op (op : BinaryOp)
  | bang
  | dot
  | parenOpen
  | parenClose
  | bracketOpen
  | bracketClose
  | braceOpen
  | braceClose
  | semicolon
  | comma
  | colon
  | assign
  | plusAssign
  deriving DecidableEq

/-- The text up to the first quotation mark without a backslash, and what follows the mark. -/
def scanString : List Char → Option (List Char × List Char)
  | [] => none
  | '\'' :: cs => some ([], cs)
  | '\\' :: '\\' :: cs => (scanString cs).map fun (s, rest) => ('\\' :: s, rest)
  | '\\' :: '\'' :: cs => (scanString cs).map fun (s, rest) => ('\'' :: s, rest)
  | '\\' :: _ => none
  | c :: cs => (scanString cs).map fun (s, rest) => (c :: s, rest)

def isWordStart (c : Char) : Bool :=
  c.isAlpha || c = '_'

def isWordPart (c : Char) : Bool :=
  c.isAlphanum || c = '_'

/-- The integer that some digits stand for, if it has 64 bits. -/
def longOf? (negative : Bool) (digits : List Char) : Option Int64 :=
  let n : Int := if negative then -(valueOf digits : Int) else valueOf digits
  if Int64.minValue.toInt ≤ n ∧ n ≤ Int64.maxValue.toInt then some (.ofInt n) else none

def scanNumeral (cs : List Char) : Option (Token × List Char) :=
  match scan cs with
  | .error _ => none
  | .ok (⟨negative, whole, none, none⟩, 'L' :: rest) =>
    (longOf? negative whole).map fun n => (.long n, rest)
  | .ok (⟨negative, whole, none, none⟩, rest) =>
    if negative then none else some (.integer (valueOf whole), rest)
  | .ok (numeral, rest) => some (.double numeral.nearest, rest)

def scanSign : List Char → Option (Token × List Char)
  | '\'' :: cs => (scanString cs).map fun (s, rest) => (.string (.ofList s), rest)
  | '|' :: '|' :: cs => some (.op .or, cs)
  | '&' :: '&' :: cs => some (.op .and, cs)
  | '=' :: '=' :: cs => some (.op .eq, cs)
  | '=' :: cs => some (.assign, cs)
  | '+' :: '=' :: cs => some (.plusAssign, cs)
  | '!' :: '=' :: cs => some (.op .ne, cs)
  | '!' :: cs => some (.bang, cs)
  | '>' :: cs => some (.op .gt, cs)
  | '*' :: cs => some (.op .mul, cs)
  | '/' :: cs => some (.op .div, cs)
  | '.' :: cs => some (.dot, cs)
  | '(' :: cs => some (.parenOpen, cs)
  | ')' :: cs => some (.parenClose, cs)
  | '[' :: cs => some (.bracketOpen, cs)
  | ']' :: cs => some (.bracketClose, cs)
  | '\x7b' :: cs => some (.braceOpen, cs)
  | '\x7d' :: cs => some (.braceClose, cs)
  | ';' :: cs => some (.semicolon, cs)
  | ',' :: cs => some (.comma, cs)
  | ':' :: cs => some (.colon, cs)
  | _ => none

/-- The longest token at the start, and what follows it. -/
def scanToken : List Char → Option (Token × List Char)
  | [] => none
  | c :: cs =>
    if isWordStart c then
      some (.word (.ofList (c :: cs.takeWhile isWordPart)), cs.dropWhile isWordPart)
    else if c.isDigit || c = '-' then scanNumeral (c :: cs)
    else scanSign (c :: cs)

def isBlank (c : Char) : Bool :=
  c = ' ' || c = '\t' || c = '\n' || c = '\r'

inductive Lexes : List Char → List Token → Prop
  | nil : Lexes [] []
  | blank {c cs ts} (hc : isBlank c) (h : Lexes cs ts) : Lexes (c :: cs) ts
  | token {cs rest t ts} (ht : scanToken cs = some (t, rest)) (h : Lexes rest ts) :
      Lexes cs (t :: ts)

namespace Lexes

variable {cs : List Char} {ts : List Token}

theorem space (h : Lexes cs ts) : Lexes (' ' :: cs) ts := .blank rfl h

theorem dot (h : Lexes cs ts) : Lexes ('.' :: cs) (.dot :: ts) := .token rfl h

theorem parenOpen (h : Lexes cs ts) : Lexes ('(' :: cs) (.parenOpen :: ts) := .token rfl h

theorem parenClose (h : Lexes cs ts) : Lexes (')' :: cs) (.parenClose :: ts) := .token rfl h

theorem bracketOpen (h : Lexes cs ts) : Lexes ('[' :: cs) (.bracketOpen :: ts) := .token rfl h

theorem bracketClose (h : Lexes cs ts) : Lexes (']' :: cs) (.bracketClose :: ts) := .token rfl h

theorem braceOpen (h : Lexes cs ts) : Lexes ('\x7b' :: cs) (.braceOpen :: ts) := .token rfl h

theorem braceClose (h : Lexes cs ts) : Lexes ('\x7d' :: cs) (.braceClose :: ts) := .token rfl h

theorem semicolon (h : Lexes cs ts) : Lexes (';' :: cs) (.semicolon :: ts) := .token rfl h

theorem comma (h : Lexes cs ts) : Lexes (',' :: cs) (.comma :: ts) := .token rfl h

theorem colon (h : Lexes cs ts) : Lexes (':' :: cs) (.colon :: ts) := .token rfl h

theorem assign (h : Lexes cs ts) : Lexes ('=' :: ' ' :: cs) (.assign :: ts) := .token rfl h.space

theorem plusAssign (h : Lexes cs ts) : Lexes ('+' :: '=' :: cs) (.plusAssign :: ts) := .token rfl h

theorem bang {c : Char} (hc : c ≠ '=') (h : Lexes (c :: cs) ts) :
    Lexes ('!' :: c :: cs) (.bang :: ts) := by
  refine .token ?_ h
  simp [scanToken, scanSign, isWordStart, hc]

theorem op (op : BinaryOp) (h : Lexes cs ts) :
    Lexes (op.sign.toList ++ ' ' :: cs) (.op op :: ts) := by
  have ht : scanToken (op.sign.toList ++ ' ' :: cs) = some (.op op, ' ' :: cs) := by
    cases op <;> rfl
  exact .token ht h.space

end Lexes

theorem scanToken_blank {c : Char} (h : isBlank c) (cs : List Char) :
    scanToken (c :: cs) = none := by
  simp only [isBlank, Bool.or_eq_true, decide_eq_true_eq] at h
  rcases h with ((rfl | rfl) | rfl) | rfl <;> rfl

theorem Lexes.unique {cs : List Char} {ts us : List Token} (h : Lexes cs ts) (h' : Lexes cs us) :
    ts = us := by
  induction h generalizing us with
  | nil =>
    cases h' with
    | nil => rfl
    | token ht _ => cases ht
  | blank hc _ ih =>
    cases h' with
    | blank _ h' => exact ih h'
    | token ht _ =>
      rw [scanToken_blank hc] at ht
      cases ht
  | token ht _ ih =>
    cases h' with
    | nil => cases ht
    | blank hc _ =>
      rw [scanToken_blank hc] at ht
      cases ht
    | token ht' h' =>
      rw [ht] at ht'
      cases ht'
      rw [ih h']

def isName (n : String) : Bool :=
  match n.toList with
  | [] => false
  | c :: cs => isWordStart c && cs.all isWordPart

variable {rest : List Char}

theorem scanToken_name {n : String} (h : isName n)
    (hr : ∀ c ∈ rest.head?, isWordPart c = false) :
    scanToken (n.toList ++ rest) = some (.word n, rest) := by
  rw [isName] at h
  cases hn : n.toList with
  | nil => simp [hn] at h
  | cons c cs =>
    rw [hn] at h
    simp only [Bool.and_eq_true, List.all_eq_true] at h
    obtain ⟨hc, hcs⟩ := h
    rw [List.cons_append, scanToken, if_pos hc, takeWhile_append hcs hr, dropWhile_append hcs hr,
      ← hn, String.ofList_toList]

theorem Lexes.word {n : String} {c : Char} {cs : List Char} {ts : List Token}
    (h : Lexes (c :: cs) ts) (hn : isName n) (hc : isWordPart c = false) :
    Lexes (n.toList ++ c :: cs) (.word n :: ts) := by
  refine .token (scanToken_name hn ?_) h
  rintro _ ⟨⟩
  exact hc

theorem scanString_escape (cs rest : List Char) :
    scanString (cs.flatMap escapeChar ++ '\'' :: rest) = some (cs, rest) := by
  induction cs with
  | nil => rfl
  | cons c cs ih =>
    rw [List.flatMap_cons, List.append_assoc]
    by_cases h : c = '\\' ∨ c = '\''
    · rcases h with rfl | rfl <;> simp [escapeChar, scanString, ih]
    · simp only [escapeChar, if_neg h]
      simp only [not_or] at h
      rw [List.singleton_append, scanString, ih]
      · rfl
      all_goals simp [h]

theorem scanToken_quoted (s : String) (rest : List Char) :
    scanToken ((quoted s).toList ++ rest) = some (.string s, rest) := by
  have h := scanString_escape s.toList rest
  simp [quoted, quotedChars, scanToken, scanSign, isWordStart, h]

theorem isWordStart_of_isDigit {c : Char} (h : c.isDigit) : isWordStart c = false := by
  rw [Char.isDigit_iff_toNat] at h
  have h₀ : '0'.toNat = 48 := rfl
  have h₉ : '9'.toNat = 57 := rfl
  have hA : 'A'.val.toNat = 65 := rfl
  have ha : 'a'.val.toNat = 97 := rfl
  have hc : c.toNat = c.val.toNat := rfl
  have hs : isWordStart c = (c.isUpper || c.isLower || decide (c = '_')) := rfl
  have hu : c.isUpper = decide ('A'.val ≤ c.val ∧ c.val ≤ 'Z'.val) := rfl
  have hl : c.isLower = (decide ('a'.val ≤ c.val) && decide (c.val ≤ 'z'.val)) := rfl
  simp only [hs, hu, hl, Bool.decide_and, Bool.or_eq_false_iff, Bool.and_eq_false_iff,
    decide_eq_false_iff_not, UInt32.le_iff_toNat_le]
  refine ⟨⟨by omega, by omega⟩, ?_⟩
  rintro rfl
  simp at h

theorem scanToken_chars {numeral : Json.Numeral} (h : numeral.WellFormed) :
    scanToken (numeral.chars ++ rest) = scanNumeral (numeral.chars ++ rest) := by
  obtain ⟨negative, whole, fraction, power⟩ := numeral
  cases negative with
  | true => rfl
  | false =>
    obtain ⟨hne, hd⟩ := h.whole
    cases whole with
    | nil => exact absurd rfl hne
    | cons c cs =>
      have hc := hd c (List.mem_cons_self ..)
      simp [Json.Numeral.chars, scanToken, isWordStart_of_isDigit hc, hc]

theorem scanToken_double {numeral : Json.Numeral} (h : numeral.WellFormed)
    (hd : numeral.fraction.isSome ∨ numeral.power.isSome) (hr : Stops rest) :
    scanToken (numeral.chars ++ rest) = some (.double numeral.nearest, rest) := by
  rw [scanToken_chars h, scanNumeral, Json.Numeral.scan_chars h hr]
  obtain ⟨negative, whole, fraction, power⟩ := numeral
  cases fraction with
  | some fraction => rfl
  | none =>
    cases power with
    | some power => rfl
    | none => simp at hd

theorem scanToken_integer (n : Nat) (hr : Stops rest) (hl : rest.head? ≠ some 'L') :
    scanToken ((toString n).toList ++ rest) = some (.integer n, rest) := by
  have h := wellFormed_integer false n
  rw [toList_toString_nat, scanToken_chars h, scanNumeral, Json.Numeral.scan_chars h hr]
  cases rest with
  | nil => simp [Json.Numeral.valueOf_toDigits]
  | cons c cs =>
    have hc : c ≠ 'L' := by
      rintro rfl
      exact hl rfl
    simp [Json.Numeral.valueOf_toDigits, hc]

theorem scanToken_long (n : Int64) (rest : List Char) :
    scanToken ((toString n.toInt).toList ++ 'L' :: rest) = some (.long n, rest) := by
  have h := wellFormed_integer (n.toInt < 0) n.toInt.natAbs
  have hr : Stops ('L' :: rest) := by
    rintro _ ⟨⟩
    decide
  have hv : longOf? (n.toInt < 0) (Nat.toDigits 10 n.toInt.natAbs) = some n := by
    have habs : (if decide (n.toInt < 0) then -(n.toInt.natAbs : Int) else n.toInt.natAbs) =
        n.toInt := by
      simp only [decide_eq_true_eq]
      split <;> omega
    rw [longOf?, Json.Numeral.valueOf_toDigits, habs, if_pos ⟨n.minValue_le_toInt, n.toInt_le⟩,
      Int64.ofInt_toInt]
  rw [toList_toString_int, scanToken_chars h, scanNumeral, Json.Numeral.scan_chars h hr]
  simp [hv]

end TallyRules.Script
