import TallyRules.Proofs.Json.Written
import TallyRules.Proofs.Number.Numeral
import TallyRules.Proofs.Number.Range

/-! # Numbers in JSON texts

An integer of 64 bits is read back from its text as it was. The text of any
other finite number has a fraction or a power of ten, and no more digits than an
integer of 64 bits without sign holds. So all of them count when it is read, and
what is read is in range: a division only makes it smaller, and a product does
not come near the limit, unless it is that of one of the two greatest numbers.
What is not finite is written as `null`.
-/

namespace TallyRules.Json.Numeral

open Binary64 (Canonical)

section Values

variable {n : Nat} {cs : List Char} {numeral : Numeral}

def valueAfter (n : Nat) (cs : List Char) : Nat :=
  cs.foldl (fun n c => 10 * n + (c.toNat - '0'.toNat)) n

theorem valueOf_append (cs ds : List Char) : valueOf (cs ++ ds) = valueAfter (valueOf cs) ds :=
  List.foldl_append

theorem le_valueAfter (n : Nat) (cs : List Char) : n ≤ valueAfter n cs := by
  induction cs generalizing n with
  | nil => exact Nat.le_refl n
  | cons c cs ih =>
    refine le_trans ?_ (ih (10 * n + (c.toNat - '0'.toNat)))
    omega

theorem valueAfter_lt (hd : ∀ c ∈ cs, c.isDigit) (n : Nat) :
    valueAfter n cs < (n + 1) * 10 ^ cs.length := by
  induction cs generalizing n with
  | nil => simp [valueAfter]
  | cons c cs ih =>
    obtain ⟨hc, hcs⟩ := List.forall_mem_cons.mp hd
    have hdigit : c.toNat - '0'.toNat ≤ 9 := by
      have hnine : '9'.toNat = '0'.toNat + 9 := rfl
      have hbounds := Char.isDigit_iff_toNat.mp hc
      omega
    have hle : 10 * n + (c.toNat - '0'.toNat) + 1 ≤ (n + 1) * 10 := by omega
    calc valueAfter n (c :: cs)
        < (10 * n + (c.toNat - '0'.toNat) + 1) * 10 ^ cs.length := ih hcs _
      _ ≤ (n + 1) * 10 * 10 ^ cs.length := Nat.mul_le_mul_right _ hle
      _ = (n + 1) * 10 ^ (c :: cs).length := by
        rw [List.length_cons, pow_succ', Nat.mul_assoc]

theorem appendDigits_eq (h : valueAfter n cs < UInt64.size) :
    appendDigits n cs = (valueAfter n cs, []) := by
  induction cs generalizing n with
  | nil => rfl
  | cons c cs ih =>
    have hnext := (le_valueAfter _ cs).trans_lt h
    rw [appendDigits, if_pos hnext]
    exact ih h

def significand (numeral : Numeral) : Nat :=
  valueOf (numeral.whole ++ numeral.fraction.getD [])

/-- The power of ten of the last digit of a numeral. -/
def exponent (numeral : Numeral) : Int :=
  (match numeral.power with
    | none => 0
    | some (negative, digits) => if negative then -(valueOf digits : Int) else valueOf digits) -
    (numeral.fraction.getD []).length

/-- A numeral with few digits stands for a number if its significand can be scaled. -/
theorem exists_value (hd : numeral.fraction.isSome ∨ numeral.power.isSome)
    (hlt : numeral.significand < UInt64.size)
    (hs : (scaled 4 (.ofNat numeral.significand) numeral.exponent).isSome) :
    ∃ y, numeral.value = some (.float y) := by
  obtain ⟨negative, whole, fraction, power⟩ := numeral
  simp only [significand, valueOf_append] at hlt hs
  have hw : appendDigits 0 whole = (valueOf whole, []) :=
    appendDigits_eq ((le_valueAfter _ (fraction.getD [])).trans_lt hlt)
  have hf : appendDigits (valueOf whole) (fraction.getD []) =
      (valueAfter (valueOf whole) (fraction.getD []), []) := appendDigits_eq hlt
  obtain ⟨x, hx⟩ := Option.isSome_iff_exists.mp hs
  refine ⟨if negative then -x else x, ?_⟩
  have hshift (power : Int) : ((0 : Nat) : Int) - ((fraction.getD []).length - 0 : Nat) + power =
      power - (fraction.getD []).length := by omega
  simp only [value, hw]
  split
  · simp at hd
  · simp only [hf, List.length_nil, hshift]
    exact congrArg (Option.map _) hx

end Values

section Scaling

variable {x : Binary64} {e : Int} {m p : Nat}

theorem isSome_scaled_of_neg (hx : x.units?.isSome) (steps : Nat) (he : e < 0) :
    (scaled steps x e).isSome := by
  induction steps generalizing x e with
  | zero => rfl
  | succ steps ih =>
    rw [scaled]
    split
    · rename_i hk
      have hquotient := Binary64.isSome_divideBy_powerOfTen hx hk
      simp [show ¬ 0 ≤ e by omega, hquotient]
    · split
      · rfl
      · rw [if_neg (by omega)]
        exact ih (Binary64.isSome_divideBy_powerOfTen hx (Nat.le_refl 308)) (by omega)

theorem isSome_scaled_of_product {digits k : Nat} (hd : 0 < digits) (hlt : digits < UInt64.size)
    (h : 4 * (digits * Nat.pow 10 k * Binary64.unitsPerOne) ≤ Binary64.productLimit) :
    (scaled 4 (.ofNat digits) k).isSome := by
  have hproduct :=
    Binary64.isSome_scaleBy_powerOfTen hd (hlt.le.trans Binary64.size_le_pow_ten) h
  rw [scaled, Int.natAbs_natCast, if_pos (Binary64.le_of_product_le hd h)]
  simp only [Int.natCast_nonneg, hproduct, if_true, Option.isSome_some]

theorem digits_shortest_lt (tie : Decimal.Tie) (m p : Nat) :
    (Decimal.shortest tie m p).digits < UInt64.size :=
  (Decimal.digits_shortest_le tie m p).trans_lt (by decide)

/-- The shortest decimal of a finite number is in range, whatever it is rounded to on the way. -/
theorem isSome_scaled_shortest (tie : Decimal.Tie) (h : Canonical m p) (hm : 0 < m) :
    (scaled 4 (.ofNat (Decimal.shortest tie m p).digits)
      (Decimal.shortest tie m p).exponent).isSome := by
  have hlt := digits_shortest_lt tie m p
  rcases lt_or_ge (Decimal.shortest tie m p).exponent 0 with he | he
  · exact isSome_scaled_of_neg (Binary64.isSome_ofNat hlt) 4 he
  · by_cases htop : p = 2045 ∧ Nat.pow 2 53 ≤ m + 2
    · -- there is no room above the two greatest numbers
      obtain ⟨rfl, hge⟩ := htop
      have hm := h.1
      have hcases : m = Nat.pow 2 53 - 2 ∨ m = Nat.pow 2 53 - 1 := by omega
      rcases hcases with rfl | rfl <;> cases tie <;> decide +kernel
    · have hroom : p = 2045 → m + 2 < Nat.pow 2 53 :=
        fun hp => Nat.lt_of_not_le fun hge => htop ⟨hp, hge⟩
      have hc := Decimal.contains_shortest tie h hm
      have hpos := Decimal.digits_shortest_pos tie h hm
      obtain ⟨k, hk⟩ := Int.eq_ofNat_of_zero_le he
      rw [hk] at hc ⊢
      exact isSome_scaled_of_product hpos hlt (Binary64.product_le_productLimit h hroom hc)

end Scaling

section Texts

variable {cs rest : List Char} {d : Decimal} {negative : Bool} {m p : Nat}

/-- The text is a numeral of a floating-point number, up to what follows it. -/
def IsFloat (cs rest : List Char) : Prop :=
  ∃ numeral y, scan (cs ++ rest) = .ok (numeral, rest) ∧ numeral.value = some (.float y)

theorem isFloat_of_isNumeral {numeral : Numeral} (hn : d.IsNumeral cs numeral)
    (hlt : numeral.significand < UInt64.size) (he : numeral.exponent < 0) (hr : Stops rest) :
    IsFloat ((if numeral.negative then ['-'] else []) ++ cs) rest := by
  obtain ⟨y, hy⟩ := exists_value hn.isDouble hlt
    (isSome_scaled_of_neg (Binary64.isSome_ofNat hlt) 4 he)
  exact ⟨numeral, y, hn.chars ▸ scan_chars hn.wellFormed hr, hy⟩

theorem isFloat_positional (hz : d.digits ≠ 0 ∨ d.exponent = 0) (hlt : d.digits < UInt64.size)
    (hp : d.power ≤ 15) (hr : Stops rest) :
    IsFloat ((if negative then ['-'] else []) ++ d.positionalChars .json) rest := by
  rcases lt_or_ge d.exponent 0 with he | he
  · obtain ⟨whole, fraction, hn, hv, hf⟩ := Decimal.isNumeral_fraction negative he
    refine isFloat_of_isNumeral hn ?_ ?_ hr
    · rwa [significand, Option.getD_some, hv]
    · simp only [exponent, Option.getD_some, hf]
      omega
  · have hn := Decimal.isNumeral_whole negative hz he
    refine isFloat_of_isNumeral hn ?_ (by simp [exponent]) hr
    rw [significand, Option.getD_some]
    have hdigits := (isDigits_append_zeros hn.wellFormed.whole 1).2
    have hlength : (d.digitChars ++ List.replicate d.exponent.toNat '0' ++ ['0']).length ≤ 17 := by
      by_cases hd : d.digits = 0
      · have he := hz.resolve_left (not_not.mpr hd)
        simp [Decimal.digitChars, hd, he]
      · rw [Decimal.power, if_neg hd] at hp
        simp only [List.length_append, List.length_replicate, List.length_singleton]
        omega
    calc valueOf (d.digitChars ++ List.replicate d.exponent.toNat '0' ++ ['0'])
        < (0 + 1) * 10 ^ (d.digitChars ++ List.replicate d.exponent.toNat '0' ++ ['0']).length :=
          valueAfter_lt hdigits 0
      _ ≤ (0 + 1) * 10 ^ 17 := Nat.mul_le_mul_left _ (Nat.pow_le_pow_right (by omega) hlength)
      _ < UInt64.size := by decide

theorem scanPower_signed (negative : Bool) {digits : List Char} (hd : IsDigits digits)
    (hr : ∀ c ∈ rest.head?, c.isDigit = false) :
    scanPower ('e' :: ((if negative then ['-'] else ['+']) ++ digits ++ rest)) =
      .ok (some (negative, digits), rest) := by
  have h := scanDigits1_append hd hr
  cases negative <;> simp [scanPower, scanSign, h, Except.map]

theorem isFloat_scientific (hd : d.digits ≠ 0) (hlt : d.digits < UInt64.size)
    (hs : (scaled 4 (.ofNat d.digits) d.exponent).isSome) (hr : Stops rest) :
    IsFloat ((if negative then ['-'] else []) ++ d.scientificChars .json) rest := by
  obtain ⟨whole, fraction, hchars, hw, hv, he⟩ := Decimal.exists_mantissa hd
  obtain ⟨power, hpower⟩ :
      ∃ power, power = (decide (d.power < 0), Nat.toDigits 10 d.power.natAbs) := ⟨_, rfl⟩
  have hdigits : IsDigits power.2 := hpower ▸ isDigits_toDigits d.power.natAbs
  have hwell := hw negative (some power) (by rintro _ _ ⟨⟩; exact hdigits)
  have hexponent : exponent ⟨negative, whole, fraction, some power⟩ = d.exponent := by
    simp only [exponent, hpower, decide_eq_true_eq, valueOf_toDigits, ← he]
    split <;> omega
  obtain ⟨y, hy⟩ : ∃ y, value ⟨negative, whole, fraction, some power⟩ = some (.float y) :=
    exists_value (Or.inr rfl) (by rwa [significand, hv]) (by rwa [significand, hv, hexponent])
  have htail := scanPower_signed power.1 hdigits fun c hc => (hr c hc).1
  have hscan := scan_append hwell htail (by rintro _ ⟨⟩; decide)
  exact ⟨_, y, by simpa [hchars, hpower, NumberStyle.json] using hscan, hy⟩

theorem isFloat_text (negative : Bool) (h : Canonical m p) (hr : Stops rest) :
    IsFloat ((Binary64.finite negative m p h).text .json).toList rest := by
  have hlt := digits_shortest_lt .toEven m p
  rw [Binary64.text, String.toList_ofList, show NumberStyle.json.tie = .toEven from rfl]
  by_cases hp : -5 ≤ (Decimal.shortest .toEven m p).power ∧
      (Decimal.shortest .toEven m p).power ≤ 15
  · rw [show (Decimal.shortest .toEven m p).chars .json = _ from if_pos hp]
    exact isFloat_positional (Decimal.shortest_ne_zero_or .toEven h) hlt hp.2 hr
  · rw [show (Decimal.shortest .toEven m p).chars .json = _ from if_neg hp]
    have hm : 0 < m := by
      refine Nat.pos_of_ne_zero fun hm => hp ?_
      rw [hm, show Decimal.shortest .toEven 0 p = ⟨0, 0⟩ from rfl]
      decide
    exact isFloat_scientific (Decimal.digits_shortest_pos .toEven h hm).ne' hlt
      (isSome_scaled_shortest .toEven h hm) hr

end Texts

section Starts

variable {cs rest : List Char} {numeral : Numeral}

theorem exists_cons_of_scan (h : scan cs = .ok (numeral, rest)) :
    ∃ c tail, cs = c :: tail ∧ (c = '-' ∨ c.isDigit) := by
  cases cs with
  | nil => cases h
  | cons c tail =>
    refine ⟨c, tail, rfl, ?_⟩
    by_contra hc
    obtain ⟨hm, hd⟩ := not_or.mp hc
    have hw : scanWhole (c :: tail) = .error .malformed := by
      simp [scanWhole, scanDigits1, scanDigits, hd]
    unfold scan at h
    split at h
    rename_i hsign
    split at hsign
    · rename_i heq
      cases heq
      exact hm rfl
    · cases hsign
      rw [hw] at h
      cases h

end Starts

end TallyRules.Json.Numeral

namespace TallyRules.Json

variable {cs rest : List Char}

theorem Reading.scanValue_of_scan {numeral : Numeral} {n : Number}
    (h : Numeral.scan cs = .ok (numeral, rest)) (hv : numeral.value = some n) (fuel : Nat) :
    scanValue (fuel + 1) cs = ⟨number (.ok n), .ok rest⟩ := by
  obtain ⟨c, tail, rfl, hc⟩ := Numeral.exists_cons_of_scan h
  have hs : isSpace c = false := by
    rcases hc with rfl | hc
    · decide
    · by_contra hs
      simp only [isSpace, Bool.not_eq_false, Bool.or_eq_true, decide_eq_true_eq] at hs
      rcases hs with ((rfl | rfl) | rfl) | rfl <;> exact absurd hc (by decide)
  have hn : scanNumber (c :: tail) = ⟨number (.ok n), .ok rest⟩ := by
    rw [scanNumber, h]
    simp [hv, Option.elim]
  have hother : ∀ d : Char, d ≠ '-' → d.isDigit = false → c ≠ d := by
    rintro d hm hd rfl
    rcases hc with hc | hc
    · exact hm hc
    · rw [hd] at hc
      cases hc
  rw [scanValue, skipSpace_cons hs]
  split
  case h_8 =>
    rename_i heq
    cases heq
    rw [if_pos hc, hn]
  case h_1 => contradiction
  all_goals
    rename_i heq
    exact absurd (List.cons.inj heq).1 (hother _ (by decide) (by decide))

theorem decode_of_scan {α : Type} (read : (room : Nat) → Reading → Result α) {text : String}
    {numeral : Numeral} {n : Number} (h : Numeral.scan text.toList = .ok (numeral, []))
    (hv : numeral.value = some n) : decode read text = read greatestDepth (.number (.ok n)) :=
  decode_of_ofChars read (Reading.scanValue_of_scan h hv _)

theorem decode_integer {α : Type} (read : (room : Nat) → Reading → Result α) {n : Int}
    (hlo : Int64.minValue.toInt ≤ n) (hhi : n < UInt64.size) :
    decode read (number (.integer n)).text = read greatestDepth (.number (.ok (.integer n))) := by
  have hmin : Int64.minValue.toInt = -2 ^ 63 := rfl
  have hsize : UInt64.size = 2 ^ 64 := rfl
  have hmin' : Int64.minValue.toInt.natAbs = 2 ^ 63 := rfl
  have hscan : Numeral.scan (toString n).toList =
      .ok (⟨decide (n < 0), Nat.toDigits 10 n.natAbs, none, none⟩, []) := by
    rw [Numeral.toList_toString_int, ← List.append_nil (Numeral.chars _)]
    exact Numeral.scan_chars (Numeral.wellFormed_integer _ _) nofun
  have hdigits : Numeral.appendDigits 0 (Nat.toDigits 10 n.natAbs) = (n.natAbs, []) := by
    have hvalue : Numeral.valueAfter 0 (Nat.toDigits 10 n.natAbs) = n.natAbs :=
      Numeral.valueOf_toDigits n.natAbs
    rw [Numeral.appendDigits_eq (by omega), hvalue]
  refine decode_of_scan read hscan ?_
  simp only [Numeral.value, hdigits, hmin']
  rcases lt_or_ge n 0 with hn | hn
  · rw [if_neg (by simp [hn]), if_pos (by omega), show -(n.natAbs : Int) = n by omega]
  · rw [if_pos (by simp [hn]), show (n.natAbs : Int) = n by omega]

theorem exists_decode_float {α : Type} (read : (room : Nat) → Reading → Result α) {x : Binary64}
    (hx : x.units?.isSome) :
    ∃ y, decode read (number (.float x)).text = read greatestDepth (.number (.ok (.float y))) := by
  cases x with
  | finite negative m p h =>
    have hstops : Numeral.Stops [] := nofun
    obtain ⟨numeral, y, hscan, hv⟩ := Numeral.isFloat_text negative h hstops
    rw [List.append_nil] at hscan
    exact ⟨y, decode_of_scan read hscan hv⟩
  | infinite _ => cases hx
  | nan => cases hx

theorem decode_of_not_finite {α : Type} (read : (room : Nat) → Reading → Result α) {x : Binary64}
    (hx : x.units? = none) : decode read (number (.float x)).text = read greatestDepth .null := by
  have htext : (number (.float x)).text = null.text := by
    rw [text, text, Number.text.eq_def]
    simp [hx]
  rw [htext]
  exact decode_text read trivial

end TallyRules.Json
