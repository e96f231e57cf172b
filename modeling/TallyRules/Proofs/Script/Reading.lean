import TallyRules.Proofs.Script.Grammar
import TallyRules.Script.Quote

/-! # Reading printed expressions

The text of an expression gives back its tokens, and these derive the
expression without its parentheses, as long as each operand that needs
parentheses has them. No text has a second reading.
-/

namespace TallyRules.Script

open Json.Numeral (Stops wellFormed_integer toList_toString_nat toList_toString_int)

/-- The reading of a text: its tokens derive the expression. -/
def Reads (text : String) (e : Expr) : Prop :=
  ∃ ts, Lexes text.toList ts ∧ Derives 0 ts e

theorem Reads.unique {text : String} {a b : Expr} (ha : Reads text a) (hb : Reads text b) :
    a = b := by
  obtain ⟨ts, hl, hd⟩ := ha
  obtain ⟨us, hl', hd'⟩ := hb
  obtain rfl := hl.unique hl'
  exact hd.unique hd'

namespace Expr

def tokens : Expr → List Token
  | null => [.word "null"]
  | bool b => [.word (toString b)]
  | integer n => [.integer n]
  | long n => [.long n]
  | double x => [.double x]
  | string s => [.string s]
  | var n => [.word n]
  | index base key => base.tokens ++ .bracketOpen :: key.tokens ++ [.bracketClose]
  | property base name => base.tokens ++ [.dot, .word name]
  | call base method => base.tokens ++ [.dot, .word method, .parenOpen, .parenClose]
  | callWith base method argument =>
    base.tokens ++ .dot :: .word method :: .parenOpen :: argument.tokens ++ [.parenClose]
  | not e => .bang :: e.tokens
  | binary op a b => a.tokens ++ .op op :: b.tokens
  | asDouble e => .parenOpen :: .word "double" :: .parenClose :: e.tokens
  | paren e => .parenOpen :: e.tokens ++ [.parenClose]

def level : Expr → Nat
  | binary op _ _ => op.level
  | not _ => 5
  | asDouble _ => 5
  | _ => 6

/-- The expression without its parentheses. -/
def bare : Expr → Expr
  | index base key => index base.bare key.bare
  | property base name => property base.bare name
  | call base method => call base.bare method
  | callWith base method argument => callWith base.bare method argument.bare
  | not e => not e.bare
  | binary op a b => binary op a.bare b.bare
  | asDouble e => asDouble e.bare
  | paren e => e.bare
  | e => e

def endsInNumeral : Expr → Bool
  | integer _ => true
  | long _ => true
  | double _ => true
  | not e => e.endsInNumeral
  | binary _ _ b => b.endsInNumeral
  | asDouble e => e.endsInNumeral
  | _ => false

/-- Names are names, numbers are finite, and an operand that is not tight enough stands in
parentheses. -/
def Readable : Expr → Prop
  | null => True
  | bool _ => True
  | integer _ => True
  | long _ => True
  | double x => x.units?.isSome
  | string _ => True
  | var n => isName n ∧ n ∉ keywords
  | index base key => base.Readable ∧ base.level = 6 ∧ key.Readable
  | property base name =>
    base.Readable ∧ base.level = 6 ∧ base.endsInNumeral = false ∧ isName name
  | call base method =>
    base.Readable ∧ base.level = 6 ∧ base.endsInNumeral = false ∧ isName method
  | callWith base method argument =>
    base.Readable ∧ base.level = 6 ∧ base.endsInNumeral = false ∧ isName method ∧ argument.Readable
  | not e => e.Readable ∧ e.level = 6
  | binary op a b => a.Readable ∧ op.level ≤ a.level ∧ b.Readable ∧ op.level < b.level
  | asDouble e => e.Readable ∧ 5 ≤ e.level
  | paren e => e.Readable

end Expr

theorem atom?_var {n : String} (h : n ∉ keywords) : (Token.word n).atom? = some (.var n) := by
  unfold Token.atom?
  split <;> simp_all [keywords]

theorem Derives.of_le {m n : Nat} {ts : List Token} {e : Expr} (h : Derives n ts e) (hm : m ≤ n)
    (hn : n ≤ 6) : Derives m ts e := by
  induction n with
  | zero =>
    obtain rfl : m = 0 := by omega
    exact h
  | succ n ih =>
    rcases Nat.lt_or_ge m (n + 1) with hlt | hge
    · exact ih (.tighter (by omega) h) (by omega) (by omega)
    · obtain rfl : m = n + 1 := by omega
      exact h

namespace Expr

theorem level_le (e : Expr) : e.level ≤ 6 := by
  cases e with
  | binary op => 
    have := op.level_le
    simp only [level]
    omega
  | _ => simp [level]

theorem derives_tokens {e : Expr} (h : e.Readable) : Derives e.level e.tokens e.bare := by
  induction e with
  | null => exact .atom rfl
  | bool b => cases b <;> exact .atom rfl
  | integer n => exact .atom rfl
  | long n => exact .atom rfl
  | double x => exact .atom rfl
  | string s => exact .atom rfl
  | var n => exact .atom (atom?_var h.2)
  | index base key ihb ihk =>
    obtain ⟨hb, hl, hk⟩ := h
    exact .index (hl ▸ ihb hb) ((ihk hk).of_le (Nat.zero_le _) key.level_le)
  | property base name ih =>
    obtain ⟨hb, hl, -⟩ := h
    exact .property (hl ▸ ih hb)
  | call base method ih =>
    obtain ⟨hb, hl, -⟩ := h
    exact .call (hl ▸ ih hb)
  | callWith base method argument ihb iha =>
    obtain ⟨hb, hl, -, -, ha⟩ := h
    exact .callWith (hl ▸ ihb hb) ((iha ha).of_le (Nat.zero_le _) argument.level_le)
  | not e ih =>
    obtain ⟨he, hl⟩ := h
    exact .not ((ih he).of_le (by omega) e.level_le)
  | binary op a b iha ihb =>
    obtain ⟨ha, hla, hb, hlb⟩ := h
    exact .binary ((iha ha).of_le hla a.level_le) ((ihb hb).of_le hlb b.level_le)
  | asDouble e ih =>
    obtain ⟨he, hl⟩ := h
    exact .asDouble ((ih he).of_le hl e.level_le)
  | paren e ih => exact .paren ((ih h).of_le (Nat.zero_le _) e.level_le)

/-- No name or numeral goes on with what follows. -/
def Stops (e : Expr) (rest : List Char) : Prop :=
  ∀ c ∈ rest.head?, isWordPart c = false ∧ (c = '.' → e.endsInNumeral = false)

theorem stops_cons {e : Expr} {c : Char} (hw : isWordPart c = false) (hc : c ≠ '.')
    (rest : List Char) : e.Stops (c :: rest) := by
  rintro _ ⟨⟩
  exact ⟨hw, fun h => absurd h hc⟩

theorem stops_dot {e : Expr} (h : e.endsInNumeral = false) (rest : List Char) :
    e.Stops ('.' :: rest) := by
  rintro _ ⟨⟩
  exact ⟨rfl, fun _ => h⟩

theorem Stops.numeral {e : Expr} {rest : List Char} (h : e.Stops rest)
    (he : e.endsInNumeral = true) : Json.Numeral.Stops rest := by
  intro c hc
  obtain ⟨hw, hd⟩ := h c hc
  refine ⟨?_, ?_, ?_, ?_⟩
  · simp only [isWordPart, Char.isAlphanum, Bool.or_eq_false_iff] at hw
    exact hw.1.2
  · rintro rfl
    simp [he] at hd
  · rintro rfl
    exact absurd hw (by decide)
  · rintro rfl
    exact absurd hw (by decide)

theorem head?_chars {numeral : Json.Numeral} (h : numeral.WellFormed) :
    ∃ c, numeral.chars.head? = some c ∧ c ≠ '=' := by
  obtain ⟨negative, whole, fraction, power⟩ := numeral
  cases negative with
  | true => exact ⟨'-', rfl, by decide⟩
  | false =>
    obtain ⟨hne, hd⟩ := h.whole
    cases whole with
    | nil => exact absurd rfl hne
    | cons c cs =>
      refine ⟨c, rfl, ?_⟩
      rintro rfl
      exact absurd (hd '=' (List.mem_cons_self ..)) (by decide)

theorem head?_name {n : String} (h : isName n) : ∃ c, n.toList.head? = some c ∧ c ≠ '=' := by
  unfold isName at h
  cases hn : n.toList with
  | nil => simp [hn] at h
  | cons c cs =>
    refine ⟨c, rfl, ?_⟩
    rintro rfl
    simp [hn, isWordStart] at h

/-- The text of an expression does not turn a sign before it into another. -/
theorem head?_text {e : Expr} (h : e.Readable) :
    ∃ c, e.text.toList.head? = some c ∧ c ≠ '=' := by
  induction e with
  | null => exact ⟨'n', rfl, by decide⟩
  | bool b =>
    cases b with
    | true => exact ⟨'t', rfl, by decide⟩
    | false => exact ⟨'f', rfl, by decide⟩
  | integer n =>
    rw [text, toList_toString_nat]
    exact head?_chars (wellFormed_integer false n)
  | long n =>
    obtain ⟨c, hc, hne⟩ := head?_chars (wellFormed_integer (n.toInt < 0) n.toInt.natAbs)
    rw [text, String.toList_append, toList_toString_int, List.head?_append, hc]
    exact ⟨c, rfl, hne⟩
  | double x =>
    cases x with
    | finite negative m p hx =>
      obtain ⟨numeral, hw, -, htext, -⟩ := Binary64.exists_numeral negative hx
      rw [text, htext, String.toList_ofList]
      exact head?_chars hw
    | infinite => simp [Readable, Binary64.units?] at h
    | nan => simp [Readable, Binary64.units?] at h
  | string s => exact ⟨'\'', by rw [text, quoted, String.toList_ofList]; rfl, by decide⟩
  | var n => exact head?_name h.1
  | index base key ihb _ =>
    obtain ⟨c, hc, hne⟩ := ihb h.1
    exact ⟨c, by simp [text, hc], hne⟩
  | property base name ih =>
    obtain ⟨c, hc, hne⟩ := ih h.1
    exact ⟨c, by simp [text, hc], hne⟩
  | call base method ih =>
    obtain ⟨c, hc, hne⟩ := ih h.1
    exact ⟨c, by simp [text, hc], hne⟩
  | callWith base method argument ihb _ =>
    obtain ⟨c, hc, hne⟩ := ihb h.1
    exact ⟨c, by simp [text, hc], hne⟩
  | not e => exact ⟨'!', by simp [text], by decide⟩
  | binary op a b iha _ =>
    obtain ⟨c, hc, hne⟩ := iha h.1
    exact ⟨c, by simp [text, hc], hne⟩
  | asDouble e => exact ⟨'(', by simp [text], by decide⟩
  | paren e => exact ⟨'(', by simp [text], by decide⟩

theorem lexes_text {e : Expr} (h : e.Readable) {rest : List Char} (hr : e.Stops rest)
    {ts : List Token} (ht : Lexes rest ts) : Lexes (e.text.toList ++ rest) (e.tokens ++ ts) := by
  induction e generalizing rest ts with
  | null => exact .token (scanToken_name (n := "null") rfl fun c hc => (hr c hc).1) ht
  | bool b =>
    cases b with
    | true => exact .token (scanToken_name (n := "true") rfl fun c hc => (hr c hc).1) ht
    | false => exact .token (scanToken_name (n := "false") rfl fun c hc => (hr c hc).1) ht
  | integer n =>
    refine .token (scanToken_integer n (hr.numeral rfl) fun hc => ?_) ht
    exact absurd (hr 'L' hc).1 (by decide)
  | long n =>
    rw [text, String.toList_append, List.append_assoc]
    exact .token (scanToken_long n rest) ht
  | double x =>
    cases x with
    | finite negative m p hx =>
      obtain ⟨numeral, hw, hd, htext, hnear⟩ := Binary64.exists_numeral negative hx
      rw [text, htext, String.toList_ofList, tokens, ← hnear]
      exact .token (scanToken_double hw hd (hr.numeral rfl)) ht
    | infinite => simp [Readable, Binary64.units?] at h
    | nan => simp [Readable, Binary64.units?] at h
  | string s => exact .token (scanToken_quoted s rest) ht
  | var n => exact .token (scanToken_name h.1 fun c hc => (hr c hc).1) ht
  | index base key ihb ihk =>
    obtain ⟨hb, hl, hk⟩ := h
    have hi := ihk hk (stops_cons rfl (by decide) rest) ht.bracketClose
    have hi := ihb hb (stops_cons rfl (by decide) _) hi.bracketOpen
    simpa [text, tokens] using hi
  | property base name ih =>
    obtain ⟨hb, hl, hn, hname⟩ := h
    have hi := Lexes.token (scanToken_name hname fun c hc => (hr c hc).1) ht
    have hi := ih hb (stops_dot hn _) hi.dot
    simpa [text, tokens] using hi
  | call base method ih =>
    obtain ⟨hb, hl, hn, hname⟩ := h
    have hi := ht.parenClose.parenOpen.word hname rfl
    have hi := ih hb (stops_dot hn _) hi.dot
    simpa [text, tokens] using hi
  | callWith base method argument ihb iha =>
    obtain ⟨hb, hl, hn, hname, ha⟩ := h
    have hi := iha ha (stops_cons rfl (by decide) rest) ht.parenClose
    have hi := hi.parenOpen.word hname rfl
    have hi := ihb hb (stops_dot hn _) hi.dot
    simpa [text, tokens] using hi
  | not e ih =>
    obtain ⟨he, hl⟩ := h
    obtain ⟨c, hc, hne⟩ := head?_text he
    obtain ⟨cs, hc⟩ := List.head?_eq_some_iff.mp hc
    have hi := ih he hr ht
    rw [hc] at hi
    simpa [text, tokens, hc] using hi.bang hne
  | binary op a b iha ihb =>
    obtain ⟨ha, hla, hb, hlb⟩ := h
    have hi := ihb hb hr ht
    have hi := iha ha (stops_cons rfl (by decide) _) (hi.op op).space
    simpa [text, tokens] using hi
  | asDouble e ih =>
    obtain ⟨he, hl⟩ := h
    have hi := (ih he hr ht).space.parenClose.word (n := "double") rfl rfl
    simpa [text, tokens] using hi.parenOpen
  | paren e ih =>
    have hi := ih h (stops_cons rfl (by decide) rest) ht.parenClose
    simpa [text, tokens] using hi.parenOpen

theorem lexes_tokens {e : Expr} (h : e.Readable) : Lexes e.text.toList e.tokens := by
  have hs : e.Stops [] := by simp [Stops]
  simpa using lexes_text h hs .nil

/-- The text of an expression has one reading, the expression without its parentheses. -/
theorem reads_text_iff {e : Expr} (h : e.Readable) (t : Expr) : Reads e.text t ↔ t = e.bare := by
  have hr : Reads e.text e.bare :=
    ⟨e.tokens, lexes_tokens h, (derives_tokens h).of_le (Nat.zero_le _) e.level_le⟩
  constructor
  · exact fun ht => ht.unique hr
  · rintro rfl
    exact hr

end Expr

end TallyRules.Script
