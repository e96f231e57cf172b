import Mathlib.Tactic.IntervalCases
import TallyRules.Json.Numeral
import TallyRules.Number.Layout
import TallyRules.Proofs.List
import TallyRules.Proofs.Number.Shortest

/-! # Numerals of numbers

The text of a finite number is a numeral with a fraction or a power of ten, and
the number nearest to that numeral is the number itself. A numeral is scanned
up to the first character that cannot belong to it.
-/

namespace TallyRules

namespace Json.Numeral

variable {cs rest : List Char}

def fractionChars : Option (List Char) → List Char
  | none => []
  | some digits => '.' :: digits

def powerChars : Option (Bool × List Char) → List Char
  | none => []
  | some (negative, digits) => 'e' :: (if negative then ['-'] else []) ++ digits

def chars (numeral : Numeral) : List Char :=
  (if numeral.negative then ['-'] else []) ++ numeral.whole ++
    fractionChars numeral.fraction ++ powerChars numeral.power

def IsDigits (cs : List Char) : Prop :=
  cs ≠ [] ∧ ∀ c ∈ cs, c.isDigit

/-- The parts of a numeral consist of digits, and only zero itself begins with a zero. -/
structure WellFormed (numeral : Numeral) : Prop where
  whole : IsDigits numeral.whole
  zero : numeral.whole.head? = some '0' → numeral.whole = ['0']
  fraction : ∀ digits ∈ numeral.fraction, IsDigits digits
  power : ∀ negative digits, numeral.power = some (negative, digits) → IsDigits digits

/-- No numeral goes on with what follows. -/
def Stops (rest : List Char) : Prop :=
  ∀ c ∈ rest.head?, c.isDigit = false ∧ c ≠ '.' ∧ c ≠ 'e' ∧ c ≠ 'E'

theorem scanDigits_append (hd : ∀ c ∈ cs, c.isDigit) (hr : ∀ c ∈ rest.head?, c.isDigit = false) :
    scanDigits (cs ++ rest) = (cs, rest) := by
  rw [scanDigits, takeWhile_append hd hr, dropWhile_append hd hr]

theorem scanDigits1_append (hd : IsDigits cs) (hr : ∀ c ∈ rest.head?, c.isDigit = false) :
    scanDigits1 (cs ++ rest) = .ok (cs, rest) := by
  rw [scanDigits1, scanDigits_append hd.2 hr]
  cases cs with
  | nil => exact absurd rfl hd.1
  | cons c cs => rfl

theorem scanWhole_append (hd : IsDigits cs) (hz : cs.head? = some '0' → cs = ['0'])
    (hr : ∀ c ∈ rest.head?, c.isDigit = false) : scanWhole (cs ++ rest) = .ok (cs, rest) := by
  rw [scanWhole, scanDigits1_append hd hr]
  split
  · rename_i heq
    simp only [Except.ok.injEq, Prod.mk.injEq] at heq
    have := hz (by simp [heq.1])
    simp [heq.1] at this
  · rfl

theorem IsDigits.append_ne (h : IsDigits cs) {c : Char} (hc : c.isDigit = false)
    (tail : List Char) : cs ++ rest ≠ c :: tail := by
  obtain ⟨hne, hd⟩ := h
  cases cs with
  | nil => exact absurd rfl hne
  | cons x cs =>
    intro heq
    obtain ⟨rfl, -⟩ := List.cons.inj heq
    have := hd x (List.mem_cons_self ..)
    simp [hc] at this

theorem scanFraction_append {fraction : Option (List Char)}
    (hd : ∀ digits ∈ fraction, IsDigits digits)
    (hr : ∀ c ∈ rest.head?, c.isDigit = false ∧ c ≠ '.') :
    scanFraction (fractionChars fraction ++ rest) = .ok (fraction, rest) := by
  cases fraction with
  | none =>
    rw [fractionChars, List.nil_append]
    unfold scanFraction
    split
    · rename_i cs
      exact absurd rfl (hr '.' rfl).2
    · rfl
  | some digits =>
    have h := scanDigits1_append (hd digits rfl) (fun c hc => (hr c hc).1)
    simp [fractionChars, scanFraction, h, Except.map]

theorem scanPower_append {power : Option (Bool × List Char)}
    (hd : ∀ negative digits, power = some (negative, digits) → IsDigits digits)
    (hr : ∀ c ∈ rest.head?, c.isDigit = false ∧ c ≠ 'e' ∧ c ≠ 'E') :
    scanPower (powerChars power ++ rest) = .ok (power, rest) := by
  cases power with
  | none =>
    cases rest with
    | nil => rfl
    | cons c rest =>
      have hc := hr c rfl
      simp [powerChars, scanPower, hc.2.1, hc.2.2]
  | some power =>
    obtain ⟨negative, digits⟩ := power
    have hds := hd negative digits rfl
    have h := scanDigits1_append hds (fun c hc => (hr c hc).1)
    cases negative with
    | true => simp [powerChars, scanPower, scanSign, h, Except.map]
    | false =>
      have hs : scanSign (digits ++ rest) = (false, digits ++ rest) := by
        unfold scanSign
        split
        · rename_i heq
          exact absurd heq (hds.append_ne rfl _)
        · rename_i heq
          exact absurd heq (hds.append_ne rfl _)
        · rfl
      simp [powerChars, scanPower, hs, h, Except.map]

theorem head?_powerChars {power : Option (Bool × List Char)}
    (hr : ∀ c ∈ rest.head?, c.isDigit = false ∧ c ≠ '.') :
    ∀ c ∈ (powerChars power ++ rest).head?, c.isDigit = false ∧ c ≠ '.' := by
  cases power with
  | none => exact hr
  | some power =>
    intro c hc
    obtain rfl : 'e' = c := by simpa [powerChars] using hc
    decide

theorem head?_fractionChars {fraction : Option (List Char)}
    (hr : ∀ c ∈ rest.head?, c.isDigit = false) :
    ∀ c ∈ (fractionChars fraction ++ rest).head?, c.isDigit = false := by
  cases fraction with
  | none => exact hr
  | some digits =>
    intro c hc
    obtain rfl : '.' = c := by simpa [fractionChars] using hc
    rfl

/-- A numeral is scanned from its text, however its power of ten is written. -/
theorem scan_append {numeral : Numeral} (h : numeral.WellFormed) {tail : List Char}
    (hp : scanPower tail = .ok (numeral.power, rest))
    (ht : ∀ c ∈ tail.head?, c.isDigit = false ∧ c ≠ '.') :
    scan ((if numeral.negative then ['-'] else []) ++ numeral.whole ++
      fractionChars numeral.fraction ++ tail) = .ok (numeral, rest) := by
  obtain ⟨negative, whole, fraction, power⟩ := numeral
  have hf : scanFraction (fractionChars fraction ++ tail) = .ok (fraction, tail) :=
    scanFraction_append h.fraction ht
  have hw : scanWhole (whole ++ (fractionChars fraction ++ tail)) =
      .ok (whole, fractionChars fraction ++ tail) :=
    scanWhole_append h.whole h.zero (head?_fractionChars fun c hc => (ht c hc).1)
  simp only [List.append_assoc]
  generalize fractionChars fraction ++ tail = chars at *
  cases negative with
  | true => simp [scan, hw, hf, hp, bind, Except.bind, pure, Except.pure]
  | false =>
    unfold scan
    simp only [Bool.false_eq_true, if_false, List.nil_append]
    split
    · rename_i heq
      exact absurd heq (h.whole.append_ne rfl _)
    · simp [hw, hf, hp, bind, Except.bind, pure, Except.pure]

theorem scan_chars {numeral : Numeral} (h : numeral.WellFormed) (hr : Stops rest) :
    scan (numeral.chars ++ rest) = .ok (numeral, rest) := by
  rw [chars, List.append_assoc]
  exact scan_append h
    (scanPower_append h.power fun c hc => ⟨(hr c hc).1, (hr c hc).2.2⟩)
    (head?_powerChars fun c hc => ⟨(hr c hc).1, (hr c hc).2.1⟩)

def nearest (numeral : Numeral) : Binary64 :=
  let digits := numeral.fraction.getD []
  let power : Int := match numeral.power with
    | none => 0
    | some (negative, digits) => if negative then -(valueOf digits : Int) else valueOf digits
  .ofDecimal numeral.negative (valueOf (numeral.whole ++ digits)) (power - digits.length)

theorem valueOf_toDigits (n : Nat) : valueOf (Nat.toDigits 10 n) = n :=
  Nat.ofDigitChars_ten_toDigits

theorem valueOf_append_zeros (ds : List Char) (k : Nat) :
    valueOf (ds ++ List.replicate k '0') = 10 ^ k * valueOf ds := by
  show Nat.ofDigitChars 10 (ds ++ List.replicate k '0') 0 = 10 ^ k * Nat.ofDigitChars 10 ds 0
  rw [Nat.ofDigitChars_append, Nat.ofDigitChars_replicate_zero]

theorem valueOf_zeros_append (ds : List Char) (k : Nat) :
    valueOf (List.replicate k '0' ++ ds) = valueOf ds := by
  show Nat.ofDigitChars 10 (List.replicate k '0' ++ ds) 0 = Nat.ofDigitChars 10 ds 0
  rw [Nat.ofDigitChars_append, Nat.ofDigitChars_replicate_zero, Nat.mul_zero]

theorem isDigits_toDigits (n : Nat) : IsDigits (Nat.toDigits 10 n) :=
  ⟨Nat.toDigits_ne_nil, fun _ hc => Nat.isDigit_of_mem_toDigits (by omega) (by omega) hc⟩

theorem IsDigits.take (h : IsDigits cs) {n : Nat} (hn : 0 < n) : IsDigits (cs.take n) := by
  refine ⟨?_, fun c hc => h.2 c (List.mem_of_mem_take hc)⟩
  rw [Ne, List.take_eq_nil_iff, not_or]
  exact ⟨by omega, h.1⟩

theorem IsDigits.drop (h : IsDigits cs) {n : Nat} (hn : n < cs.length) : IsDigits (cs.drop n) := by
  refine ⟨?_, fun c hc => h.2 c (List.mem_of_mem_drop hc)⟩
  rw [Ne, List.drop_eq_nil_iff]
  omega

theorem isDigits_zeros_append {ds : List Char} (h : IsDigits ds) (k : Nat) :
    IsDigits (List.replicate k '0' ++ ds) := by
  refine ⟨by simp [h.1], fun c hc => ?_⟩
  rcases List.mem_append.mp hc with hc | hc
  · rw [List.eq_of_mem_replicate hc]
    rfl
  · exact h.2 c hc

theorem isDigits_append_zeros {ds : List Char} (h : IsDigits ds) (k : Nat) :
    IsDigits (ds ++ List.replicate k '0') := by
  refine ⟨by simp [h.1], fun c hc => ?_⟩
  rcases List.mem_append.mp hc with hc | hc
  · exact h.2 c hc
  · rw [List.eq_of_mem_replicate hc]
    rfl

theorem head?_toDigits_ne {n : Nat} (hn : 0 < n) : (Nat.toDigits 10 n).head? ≠ some '0' := by
  induction n using Nat.strongRecOn with
  | ind n ih =>
    rw [Nat.toDigits_eq_if (by omega)]
    split
    · rename_i h
      interval_cases n <;> decide
    · rename_i h
      have := ih (n / 10) (by omega) (by omega)
      rwa [List.head?_append, Option.or_of_isSome]
      exact List.isSome_head?.mpr Nat.toDigits_ne_nil

theorem wellFormed_integer (negative : Bool) (n : Nat) :
    WellFormed ⟨negative, Nat.toDigits 10 n, none, none⟩ := by
  refine ⟨isDigits_toDigits n, fun hz => ?_, by simp, by simp⟩
  rcases Nat.eq_zero_or_pos n with rfl | hn
  · rfl
  · exact absurd hz (head?_toDigits_ne hn)

theorem toList_toString_nat (n : Nat) :
    (toString n).toList = chars ⟨false, Nat.toDigits 10 n, none, none⟩ := by
  rw [Nat.toString_eq_ofList_toDigits, String.toList_ofList]
  simp [chars, fractionChars, powerChars]

theorem toList_toString_int (n : Int) :
    (toString n).toList =
      chars ⟨decide (n < 0), Nat.toDigits 10 n.natAbs, none, none⟩ := by
  rw [Int.toString_eq_repr]
  cases n with
  | ofNat n =>
    simp [Int.repr, chars, fractionChars, powerChars,
      Nat.toList_repr]
  | negSucc n =>
    simp [Int.repr, chars, fractionChars, powerChars,
      Nat.toList_repr]

end Json.Numeral

namespace Decimal

open Json (Numeral)
open Json.Numeral

variable {d : Decimal} (negative : Bool)

/-- A numeral for a decimal: with a fraction or a power of ten, with the text of the decimal, and
nearest to the same number. -/
structure IsNumeral (d : Decimal) (cs : List Char) (numeral : Numeral) : Prop where
  wellFormed : numeral.WellFormed
  isDouble : numeral.fraction.isSome ∨ numeral.power.isSome
  chars : numeral.chars = (if numeral.negative then ['-'] else []) ++ cs
  nearest : numeral.nearest = .ofDecimal numeral.negative d.digits d.exponent

theorem isNumeral_whole (h : d.digits ≠ 0 ∨ d.exponent = 0) (he : 0 ≤ d.exponent) :
    d.IsNumeral (d.positionalChars .script)
      ⟨negative, d.digitChars ++ List.replicate d.exponent.toNat '0', some ['0'], none⟩ := by
  refine ⟨⟨isDigits_append_zeros (isDigits_toDigits _) _, fun hz => ?_, ?_, ?_⟩, Or.inl rfl, ?_, ?_⟩
  · rcases Nat.eq_zero_or_pos d.digits with hd | hd
    · have hx := h.resolve_left (by omega)
      simp [digitChars, hd, hx]
    · rw [digitChars, List.head?_append, Option.or_of_isSome] at hz
      · exact absurd hz (head?_toDigits_ne hd)
      · exact List.isSome_head?.mpr Nat.toDigits_ne_nil
  · rintro _ ⟨⟩
    exact ⟨by simp, by simp⟩
  · rintro _ _ ⟨⟩
  · simp [Json.Numeral.chars, fractionChars, powerChars, positionalChars, he, NumberStyle.script]
  · have hv : valueOf (d.digitChars ++ List.replicate d.exponent.toNat '0' ++ ['0']) =
        10 ^ (d.exponent.toNat + 1) * d.digits := by
      rw [List.append_assoc, ← List.replicate_succ', valueOf_append_zeros, digitChars,
        valueOf_toDigits]
    simp only [Json.Numeral.nearest, Option.getD_some, hv, Binary64.ofDecimal_pow_mul]
    congr 1
    simp
    omega

theorem isNumeral_fraction (he : d.exponent < 0) :
    ∃ whole fraction, d.IsNumeral (d.positionalChars .script)
        ⟨negative, whole, some fraction, none⟩ ∧
      valueOf (whole ++ fraction) = d.digits ∧ (fraction.length : Int) = -d.exponent := by
  obtain ⟨places, hp⟩ : ∃ places, places = (-d.exponent).toNat := ⟨_, rfl⟩
  obtain ⟨zeros, hz⟩ : ∃ zeros, zeros = places + 1 - d.digitChars.length := ⟨_, rfl⟩
  obtain ⟨padded, hpad⟩ : ∃ padded, padded = List.replicate zeros '0' ++ d.digitChars := ⟨_, rfl⟩
  have hlen : padded.length = zeros + d.digitChars.length := by simp [hpad]
  have hpos : 0 < d.digitChars.length := Nat.length_toDigits_pos
  have hdigits : IsDigits padded := hpad ▸ isDigits_zeros_append (isDigits_toDigits _) _
  have hv : valueOf (padded.take (padded.length - places) ++
      padded.drop (padded.length - places)) = d.digits := by
    rw [List.take_append_drop, hpad, valueOf_zeros_append, digitChars, valueOf_toDigits]
  have hfraction : ((padded.drop (padded.length - places)).length : Int) = -d.exponent := by
    rw [List.length_drop]
    omega
  refine ⟨padded.take (padded.length - places), padded.drop (padded.length - places),
    ⟨⟨?_, ?_, ?_, ?_⟩, Or.inl rfl, ?_, ?_⟩, hv, hfraction⟩
  · exact hdigits.take (by omega)
  · -- a number below one has a single zero before the point
    intro hh
    rcases Nat.lt_or_ge places d.digitChars.length with hl | hl
    · have hd : 0 < d.digits := by
        by_contra hd
        have : d.digitChars.length = 1 := by simp [digitChars, show d.digits = 0 by omega]
        omega
      have hpad : padded = d.digitChars := by simp [hpad, show zeros = 0 by omega]
      rw [List.head?_take, if_neg (by omega), hpad] at hh
      exact absurd hh (head?_toDigits_ne hd)
    · have hn : padded.length - places = 1 := by omega
      obtain ⟨k, hk⟩ : ∃ k, zeros = k + 1 := ⟨zeros - 1, by omega⟩
      show padded.take (padded.length - places) = ['0']
      rw [hn, hpad, hk]
      rfl
  · rintro _ ⟨⟩
    exact hdigits.drop (by omega)
  · rintro _ _ ⟨⟩
  · have he : ¬ 0 ≤ d.exponent := by omega
    simp [Json.Numeral.chars, fractionChars, powerChars, positionalChars, he, ← hp, ← hz, ← hpad]
  · simp only [Json.Numeral.nearest, Option.getD_some, hv, hfraction]
    congr 1
    omega

theorem exists_mantissa (h : d.digits ≠ 0) :
    ∃ whole fraction,
      (∀ style, d.scientificChars style = whole ++ fractionChars fraction ++ 'e' ::
        ((if d.power < 0 then ['-'] else if style.signsPower then ['+'] else []) ++
          Nat.toDigits 10 d.power.natAbs)) ∧
      (∀ negative power, (∀ sign digits, power = some (sign, digits) → IsDigits digits) →
        Numeral.WellFormed ⟨negative, whole, fraction, power⟩) ∧
      valueOf (whole ++ fraction.getD []) = d.digits ∧
      d.power - (fraction.getD []).length = d.exponent := by
  have hdigits := isDigits_toDigits d.digits
  have hpower : d.power = d.digitChars.length - 1 + d.exponent := by rw [power, if_neg h]
  have hv : valueOf d.digitChars = d.digits := by rw [digitChars, valueOf_toDigits]
  rw [← digitChars] at hdigits
  cases hc : d.digitChars with
  | nil => exact absurd hc hdigits.1
  | cons c cs =>
    rw [hc] at hdigits hv hpower
    have hone : IsDigits [c] := hdigits.take (n := 1) (by omega)
    cases cs with
    | nil =>
      refine ⟨[c], none, fun style => ?_, fun negative power hp => ⟨hone, by simp, by simp, hp⟩, hv,
        by simp [hpower]⟩
      simp [scientificChars, hc, fractionChars]
    | cons c' cs =>
      have hrest : IsDigits (c' :: cs) := hdigits.drop (n := 1) (by simp)
      refine ⟨[c], some (c' :: cs), fun style => ?_,
        fun negative power hp => ⟨hone, by simp, ?_, hp⟩, hv, by simp [hpower]⟩
      · simp [scientificChars, hc, fractionChars]
      · rintro _ ⟨⟩
        exact hrest

theorem isNumeral_scientific (h : d.digits ≠ 0) :
    ∃ whole fraction power, d.IsNumeral (d.scientificChars .script)
      ⟨negative, whole, fraction, some power⟩ := by
  obtain ⟨whole, fraction, hchars, hw, hv, he⟩ := exists_mantissa h
  have habs : (if d.power < 0 then -(d.power.natAbs : Int) else d.power.natAbs) = d.power := by
    split <;> omega
  refine ⟨whole, fraction, (decide (d.power < 0), Nat.toDigits 10 d.power.natAbs),
    hw negative _ ?_, Or.inr rfl, ?_, ?_⟩
  · rintro _ _ ⟨⟩
    exact isDigits_toDigits _
  · simp [Json.Numeral.chars, powerChars, hchars, NumberStyle.script]
  · simp only [Json.Numeral.nearest, decide_eq_true_eq, valueOf_toDigits, habs, hv, he]

theorem exists_isNumeral (h : d.digits ≠ 0 ∨ d.exponent = 0) :
    ∃ numeral, numeral.negative = negative ∧ d.IsNumeral (d.chars .script) numeral := by
  unfold chars
  simp only [NumberStyle.script]
  split
  · rcases lt_or_ge d.exponent 0 with he | he
    · obtain ⟨whole, fraction, hn, -⟩ := isNumeral_fraction negative he
      exact ⟨_, rfl, hn⟩
    · exact ⟨_, rfl, isNumeral_whole negative h he⟩
  · rename_i hp
    have hd : d.digits ≠ 0 := by
      intro hd
      simp [power, hd] at hp
    obtain ⟨whole, fraction, power, hn⟩ := isNumeral_scientific negative hd
    exact ⟨_, rfl, hn⟩

end Decimal

namespace Binary64

open Json (Numeral)

/-- The text of a finite number is that of a numeral, with a fraction or a power of ten, which is
nearest to the number. -/
theorem exists_numeral (negative : Bool) {m p : Nat} (h : Canonical m p) :
    ∃ numeral : Numeral, numeral.WellFormed ∧ (numeral.fraction.isSome ∨ numeral.power.isSome) ∧
      (finite negative m p h).text .script = String.ofList numeral.chars ∧
      numeral.nearest = finite negative m p h := by
  obtain ⟨numeral, rfl, hn⟩ :=
    Decimal.exists_isNumeral negative (Decimal.shortest_ne_zero_or .away h)
  have hs := ofDecimal_shortest .away numeral.negative h
  refine ⟨numeral, hn.wellFormed, hn.isDouble, ?_, hn.nearest.trans hs⟩
  rw [text, hn.chars]
  rfl

end Binary64

end TallyRules
