import TallyRules.Proofs.Number.Rounding

/-! # Shortest decimals read back

With seventeen digits the last place is smaller than the interval of a number.
So one of the two neighbours of the number at that place lies in the interval,
and the search for a shortest decimal ends with a decimal in the interval. Such
a decimal is rounded to the number, and it has seventeen digits at most.
-/

namespace TallyRules.Decimal

open Binary64 (unitsPerOne decimalLength Canonical)

variable {tie : Tie} {i : Interval} {e : Int} {m p num den : Nat}

theorem quartersPerOne_pos : 0 < quartersPerOne :=
  Nat.mul_pos (by omega) Binary64.unitsPerOne_pos

namespace Interval

theorem contains_of_lt {digits : Nat}
    (hlo : i.low * Nat.pow 10 (-e).toNat < digits * Nat.pow 10 e.toNat * quartersPerOne)
    (hhi : digits * Nat.pow 10 e.toNat * quartersPerOne < i.high * Nat.pow 10 (-e).toNat) :
    i.contains digits e := by
  simp only [contains]
  split
  · exact Bool.and_eq_true_iff.mpr ⟨decide_eq_true hlo.le, decide_eq_true hhi.le⟩
  · exact Bool.and_eq_true_iff.mpr ⟨decide_eq_true hlo, decide_eq_true hhi⟩

/-- The lower neighbour at a place of the number in an interval. -/
def below (i : Interval) (e : Int) : Nat :=
  i.middle * Nat.pow 10 (-e).toNat / (quartersPerOne * Nat.pow 10 e.toNat)

theorem nearest?_cases (tie : Tie) (i : Interval) (e : Int) :
    (i.nearest? tie e = none ∧ i.contains (i.below e) e = false ∧
        i.contains (i.below e + 1) e = false) ∨
      ∃ d, i.nearest? tie e = some d ∧ i.contains d.digits d.exponent ∧
        d.digits ≤ i.below e + 1 := by
  have hn : i.nearest? tie e = i.nearest? tie e := rfl
  conv_rhs at hn => unfold nearest?
  dsimp only at hn
  rw [← below] at hn
  cases hb : i.contains (i.below e) e with
  | false =>
    cases ha : i.contains (i.below e + 1) e with
    | false => simp [hn, hb, ha]
    | true => exact Or.inr ⟨⟨i.below e + 1, e⟩, by simp only [hn, hb, ha], ha, Nat.le_refl _⟩
  | true =>
    cases ha : i.contains (i.below e + 1) e with
    | false => exact Or.inr ⟨⟨i.below e, e⟩, by simp only [hn, hb, ha], hb, Nat.le_succ _⟩
    | true =>
      refine Or.inr ?_
      rw [hn, hb, ha]
      dsimp only
      split
      · exact ⟨_, rfl, hb, Nat.le_succ _⟩
      · split
        · exact ⟨_, rfl, ha, Nat.le_refl _⟩
        · cases tie with
          | away => exact ⟨_, rfl, ha, Nat.le_refl _⟩
          | toEven =>
            refine ⟨_, rfl, ?_, by dsimp only; omega⟩
            rcases Nat.mod_two_eq_zero_or_one (i.below e) with hm | hm
            · simpa [hm] using hb
            · simpa [hm] using ha

theorem contains_of_nearest? {d : Decimal} (h : i.nearest? tie e = some d) :
    i.contains d.digits d.exponent := by
  rcases nearest?_cases tie i e with ⟨hn, -⟩ | ⟨d', hn, hc, -⟩
  · rw [hn] at h
    cases h
  · rw [hn] at h
    cases h
    exact hc

theorem digits_of_nearest? {d : Decimal} (h : i.nearest? tie e = some d) :
    d.digits ≤ i.below e + 1 := by
  rcases nearest?_cases tie i e with ⟨hn, -⟩ | ⟨d', hn, -, hd⟩
  · rw [hn] at h
    cases h
  · rw [hn] at h
    cases h
    exact hd

/-- One of the neighbours of a number lies in its interval if the place is small enough. -/
theorem nearest?_isSome (hlo : i.low < i.middle) (hhi : i.middle < i.high)
    (hs : i.low * Nat.pow 10 (-e).toNat + quartersPerOne * Nat.pow 10 e.toNat <
      i.high * Nat.pow 10 (-e).toNat) :
    (i.nearest? tie e).isSome := by
  have hden : 0 < quartersPerOne * Nat.pow 10 e.toNat :=
    Nat.mul_pos quartersPerOne_pos (Nat.pow_pos (by omega))
  have hu : 0 < Nat.pow 10 (-e).toNat := Nat.pow_pos (by omega)
  have hdiv := Nat.div_add_mod (i.middle * Nat.pow 10 (-e).toNat)
    (quartersPerOne * Nat.pow 10 e.toNat)
  have hmod := Nat.mod_lt (i.middle * Nat.pow 10 (-e).toNat) hden
  have hlo := (Nat.mul_lt_mul_right hu).mpr hlo
  have hhi := (Nat.mul_lt_mul_right hu).mpr hhi
  rw [← below] at hdiv
  have hq : i.below e * Nat.pow 10 e.toNat * quartersPerOne =
      quartersPerOne * Nat.pow 10 e.toNat * i.below e := by ring
  have hq' : (i.below e + 1) * Nat.pow 10 e.toNat * quartersPerOne =
      quartersPerOne * Nat.pow 10 e.toNat * i.below e + quartersPerOne * Nat.pow 10 e.toNat := by
    ring
  rcases nearest?_cases tie i e with ⟨-, hb, ha⟩ | ⟨d, hn, -⟩
  · exfalso
    rcases Nat.lt_or_ge (i.low * Nat.pow 10 (-e).toNat)
        (quartersPerOne * Nat.pow 10 e.toNat * i.below e) with hl | hg
    · rw [contains_of_lt (by omega) (by omega)] at hb
      cases hb
    · rw [contains_of_lt (by omega) (by omega)] at ha
      cases ha
  · rw [hn]
    rfl

theorem contains_shortest {places k : Nat} (hk : k < places)
    (h : (i.nearest? tie (e - k)).isSome) :
    i.contains (i.shortest tie places e).digits (i.shortest tie places e).exponent := by
  induction places generalizing k e with
  | zero => omega
  | succ places ih =>
    rw [shortest]
    cases hn : i.nearest? tie e with
    | some d => exact contains_of_nearest? hn
    | none =>
      cases k with
      | zero => simp [hn] at h
      | succ k =>
        refine ih (k := k) (by omega) ?_
        rwa [show e - 1 - (k : Int) = e - (k + 1 : Nat) by push_cast; ring]

theorem digits_shortest_le {n places : Nat} (h : ∀ k < places, i.below (e - k) < n) :
    (i.shortest tie places e).digits ≤ n := by
  induction places generalizing e with
  | zero => exact Nat.zero_le n
  | succ places ih =>
    rw [shortest]
    cases hn : i.nearest? tie e with
    | some d =>
      have hbelow : i.below e < n := by simpa using h 0 (Nat.zero_lt_succ places)
      exact (digits_of_nearest? hn).trans hbelow
    | none =>
      refine ih fun k hk => ?_
      have hnext := h (k + 1) (Nat.succ_lt_succ hk)
      rwa [show e - (k + 1 : Nat) = e - 1 - (k : Int) by push_cast; ring] at hnext

end Interval

/-- The magnitude is the place of the first digit. -/
theorem pow_magnitude_le (hnum : 0 < num) (hden : 0 < den) :
    den * Nat.pow 10 (magnitude num den).toNat ≤ num * Nat.pow 10 (-magnitude num den).toNat := by
  unfold magnitude
  split
  · rename_i h
    have hlen := Binary64.decimalLength_pos (num / den)
    have hpow := Binary64.pow_decimalLength_le (Nat.div_pos h hden)
    have h₁ : ((decimalLength (num / den) : Int) - 1).toNat = decimalLength (num / den) - 1 := by
      omega
    have h₂ : (-((decimalLength (num / den) : Int) - 1)).toNat = 0 := by omega
    rw [h₁, h₂, Nat.mul_comm]
    calc Nat.pow 10 (decimalLength (num / den) - 1) * den
        ≤ num / den * den := Nat.mul_le_mul_right den hpow
      _ ≤ num := Nat.div_mul_le_self num den
      _ = num * Nat.pow 10 0 := (Nat.mul_one num).symm
  · rename_i h
    have hpow := Binary64.lt_pow_decimalLength ((den + num - 1) / num - 1)
    generalize decimalLength ((den + num - 1) / num - 1) = k at *
    have hceil : den ≤ num * ((den + num - 1) / num) := by
      have := Nat.div_add_mod (den + num - 1) num
      have := Nat.mod_lt (den + num - 1) hnum
      omega
    have h₁ : (-(k : Int)).toNat = 0 := by omega
    have h₂ : (-(-(k : Int))).toNat = k := by omega
    rw [h₁, h₂]
    calc den * Nat.pow 10 0
        = den := Nat.mul_one den
      _ ≤ num * ((den + num - 1) / num) := hceil
      _ ≤ num * 10 ^ k := Nat.mul_le_mul_left num (by omega)

theorem lt_pow_magnitude (hnum : 0 < num) (hden : 0 < den) :
    num * Nat.pow 10 (-(magnitude num den + 1)).toNat <
      den * Nat.pow 10 (magnitude num den + 1).toNat := by
  unfold magnitude
  split
  · have hpow := Binary64.lt_pow_decimalLength (num / den)
    generalize decimalLength (num / den) = k at *
    have h₁ : ((k : Int) - 1 + 1).toNat = k := by omega
    have h₂ : (-((k : Int) - 1 + 1)).toNat = 0 := by omega
    rw [h₁, h₂, Nat.mul_comm den]
    calc num * Nat.pow 10 0 = num := Nat.mul_one num
      _ < Nat.pow 10 k * den := (Nat.div_lt_iff_lt_mul hden).mp hpow
  · rename_i h
    have hceil : num * ((den + num - 1) / num - 1) < den := by
      have := Nat.div_mul_le_self (den + num - 1) num
      rw [Nat.mul_sub, Nat.mul_comm, Nat.mul_one]
      omega
    have hone : 0 < (den + num - 1) / num - 1 := by
      have : 2 ≤ (den + num - 1) / num := (Nat.le_div_iff_mul_le hnum).mpr (by omega)
      omega
    have hpow := Binary64.pow_decimalLength_le hone
    have hlen := Binary64.decimalLength_pos ((den + num - 1) / num - 1)
    generalize (den + num - 1) / num - 1 = q at *
    generalize decimalLength q = k at *
    have h₁ : (-(k : Int) + 1).toNat = 0 := by omega
    have h₂ : (-(-(k : Int) + 1)).toNat = k - 1 := by omega
    rw [h₁, h₂]
    calc num * Nat.pow 10 (k - 1) ≤ num * q := Nat.mul_le_mul_left num hpow
      _ < den := hceil
      _ = den * Nat.pow 10 0 := (Nat.mul_one den).symm

theorem pow_toNat_mul (a b : Int) (k : Nat) (h : a = b + k) :
    Nat.pow 10 a.toNat * Nat.pow 10 (-b).toNat =
      Nat.pow 10 b.toNat * Nat.pow 10 (-a).toNat * Nat.pow 10 k := by
  simp only [Nat.pow_eq, ← pow_add]
  congr 1
  omega

theorem place_mul_le (hnum : 0 < num) (hden : 0 < den) (k : Nat) (he : e = magnitude num den - k) :
    den * Nat.pow 10 e.toNat * Nat.pow 10 k ≤ num * Nat.pow 10 (-e).toNat := by
  have hpow := pow_magnitude_le hnum hden
  have hshift := pow_toNat_mul (magnitude num den) e k (by omega)
  have hpos : 0 < Nat.pow 10 (-magnitude num den).toNat := Nat.pow_pos (by omega)
  refine Nat.le_of_mul_le_mul_right ?_ hpos
  calc den * Nat.pow 10 e.toNat * Nat.pow 10 k * Nat.pow 10 (-magnitude num den).toNat
      = den * (Nat.pow 10 e.toNat * Nat.pow 10 (-magnitude num den).toNat * Nat.pow 10 k) := by
        ring
    _ = den * Nat.pow 10 (magnitude num den).toNat * Nat.pow 10 (-e).toNat := by
        rw [← hshift]
        ring
    _ ≤ num * Nat.pow 10 (-magnitude num den).toNat * Nat.pow 10 (-e).toNat :=
        Nat.mul_le_mul_right _ hpow
    _ = num * Nat.pow 10 (-e).toNat * Nat.pow 10 (-magnitude num den).toNat := by ring

theorem mul_lt_place_mul (hnum : 0 < num) (hden : 0 < den) (k : Nat)
    (he : magnitude num den + 1 = e + k) :
    num * Nat.pow 10 (-e).toNat < Nat.pow 10 k * (den * Nat.pow 10 e.toNat) := by
  have hpow := lt_pow_magnitude hnum hden
  have hshift := pow_toNat_mul (magnitude num den + 1) e k he
  have hpos : 0 < Nat.pow 10 (-e).toNat := Nat.pow_pos (by omega)
  refine Nat.lt_of_mul_lt_mul_right (a := Nat.pow 10 (-(magnitude num den + 1)).toNat) ?_
  calc num * Nat.pow 10 (-e).toNat * Nat.pow 10 (-(magnitude num den + 1)).toNat
      = num * Nat.pow 10 (-(magnitude num den + 1)).toNat * Nat.pow 10 (-e).toNat := by ring
    _ < den * Nat.pow 10 (magnitude num den + 1).toNat * Nat.pow 10 (-e).toNat :=
        (Nat.mul_lt_mul_right hpos).mpr hpow
    _ = den * (Nat.pow 10 (magnitude num den + 1).toNat * Nat.pow 10 (-e).toNat) := by ring
    _ = Nat.pow 10 k * (den * Nat.pow 10 e.toNat) *
          Nat.pow 10 (-(magnitude num den + 1)).toNat := by
        rw [hshift]
        ring

/-- With seventeen digits the last place is smaller than an interval. -/
theorem Interval.add_place_lt (h : Canonical m p) (hm : 0 < m) {place unit : Nat}
    (hu : 0 < unit)
    (hplace : place * Nat.pow 10 16 ≤ (Interval.ofParts m p).middle * unit) :
    (Interval.ofParts m p).low * unit + place < (Interval.ofParts m p).high * unit := by
  have hX : 0 < Nat.pow 2 p * unit := Nat.mul_pos (Nat.two_pow_pos p) hu
  have hmX : (m + 1) * (Nat.pow 2 p * unit) ≤ Nat.pow 2 53 * (Nat.pow 2 p * unit) :=
    Nat.mul_le_mul_right _ h.1
  have hmid : (Interval.ofParts m p).middle * unit = 4 * (m * (Nat.pow 2 p * unit)) := by
    simp only [Interval.ofParts]
    ring
  have hhigh : (Interval.ofParts m p).high * unit =
      4 * (m * (Nat.pow 2 p * unit)) + 2 * (Nat.pow 2 p * unit) := by
    simp only [Interval.ofParts]
    ring
  have hle := Binary64.four_mul_pow_le hm p
  have h₅₂ : Nat.pow 2 52 = 4503599627370496 := rfl
  have h₅₃ : Nat.pow 2 53 = 9007199254740992 := rfl
  have h₁₆ : Nat.pow 10 16 = 10000000000000000 := rfl
  rw [hhigh]
  rw [hmid, h₁₆] at hplace
  rw [h₅₃, Nat.add_mul] at hmX
  -- the interval of a power of two is narrower on the lower side
  by_cases hb : m = Nat.pow 2 52 ∧ p ≠ 0
  · have hlow : (Interval.ofParts m p).low * unit + Nat.pow 2 p * unit =
        4 * (m * (Nat.pow 2 p * unit)) := by
      have : (Interval.ofParts m p).low + Nat.pow 2 p = 4 * m * Nat.pow 2 p := by
        simp only [Interval.ofParts, if_pos hb]
        omega
      rw [← Nat.add_mul, this]
      ring
    obtain rfl : m = 4503599627370496 := hb.1.trans h₅₂
    generalize Nat.pow 2 p * unit = X at *
    omega
  · have hlow : (Interval.ofParts m p).low * unit + 2 * (Nat.pow 2 p * unit) =
        4 * (m * (Nat.pow 2 p * unit)) := by
      have : (Interval.ofParts m p).low + 2 * Nat.pow 2 p = 4 * m * Nat.pow 2 p := by
        simp only [Interval.ofParts, if_neg hb]
        omega
      rw [← Nat.mul_assoc 2, ← Nat.add_mul, this]
      ring
    generalize m * (Nat.pow 2 p * unit) = M at *
    generalize Nat.pow 2 p * unit = X at *
    omega

theorem contains_shortest_ofParts (h : Canonical m p) (hm : 0 < m) :
    let i := Interval.ofParts m p
    let d := i.shortest tie 17 (magnitude i.middle quartersPerOne)
    i.contains d.digits d.exponent := by
  intro i d
  have hs : 0 < Nat.pow 2 p := Nat.two_pow_pos p
  have hms := Binary64.four_mul_pow_le hm p
  have hmid : i.middle = 4 * m * Nat.pow 2 p := rfl
  have hhigh : i.high = 4 * m * Nat.pow 2 p + 2 * Nat.pow 2 p := rfl
  have hlow : i.low < i.middle := by
    simp only [i, Interval.ofParts]
    split <;> omega
  have hpos : 0 < i.middle := by omega
  have hplace := place_mul_le hpos quartersPerOne_pos 16 rfl
  refine Interval.contains_shortest (k := 16) (by omega)
    (Interval.nearest?_isSome hlow (by omega) ?_)
  exact Interval.add_place_lt h hm (Nat.pow_pos (by omega)) hplace

theorem digits_stripped_le (fuel : Nat) (d : Decimal) : (d.stripped fuel).digits ≤ d.digits := by
  induction fuel generalizing d with
  | zero => exact Nat.le_refl _
  | succ fuel ih =>
    rw [stripped]
    split
    · exact (ih _).trans (Nat.div_le_self _ _)
    · exact Nat.le_refl _

/-- The shortest decimal has seventeen digits at most, but for a power of ten. -/
theorem digits_shortest_le (tie : Tie) (m p : Nat) : (shortest tie m p).digits ≤ Nat.pow 10 17 := by
  rw [shortest]
  split
  · exact Nat.zero_le _
  · rename_i hm
    refine (digits_stripped_le 17 _).trans (Interval.digits_shortest_le fun k hk => ?_)
    have hmiddle : 0 < (Interval.ofParts m p).middle :=
      Nat.mul_pos (by omega) (Nat.two_pow_pos p)
    generalize hlast : magnitude (Interval.ofParts m p).middle quartersPerOne - k = e
    have hplace :=
      mul_lt_place_mul (e := e) hmiddle quartersPerOne_pos (k + 1) (by push_cast; omega)
    have hpos : 0 < quartersPerOne * Nat.pow 10 e.toNat :=
      Nat.mul_pos quartersPerOne_pos (Nat.pow_pos (by omega))
    have hk17 : Nat.pow 10 (k + 1) ≤ Nat.pow 10 17 := Nat.pow_le_pow_right (by omega) hk
    exact (Nat.div_lt_iff_lt_mul hpos).mpr (hplace.trans_le (Nat.mul_le_mul_right _ hk17))

section Stripped

theorem Interval.Holds.of_mul_right {k : Nat} (hk : 0 < k) (h : i.Holds (num * k) (den * k)) :
    i.Holds num den := by
  simpa only [Interval.Holds, ← Nat.mul_assoc, Nat.mul_le_mul_right_iff hk,
    Nat.mul_lt_mul_right hk] using h

theorem Interval.contains_of_ten_mul {n : Nat} (h : i.contains (10 * n) e) :
    i.contains n (e + 1) := by
  rw [Interval.contains_iff] at h ⊢
  rcases lt_or_ge e 0 with he | he
  · have h₁ : (e + 1).toNat = e.toNat := by omega
    have h₂ : (-e).toNat = (-(e + 1)).toNat + 1 := by omega
    rw [h₁]
    refine Interval.Holds.of_mul_right (k := 10) (by omega) ?_
    have hnum : n * Nat.pow 10 e.toNat * unitsPerOne * 10 =
        10 * n * Nat.pow 10 e.toNat * unitsPerOne := by ring
    rw [hnum]
    rwa [h₂] at h
  · have h₁ : (e + 1).toNat = e.toNat + 1 := by omega
    have h₂ : (-(e + 1)).toNat = (-e).toNat := by omega
    have hnum : n * Nat.pow 10 (e.toNat + 1) = 10 * n * Nat.pow 10 e.toNat := by
      rw [Nat.pow_eq, Nat.pow_eq, pow_succ]
      ring
    rwa [h₁, h₂, hnum]

theorem contains_stripped (fuel : Nat) {d : Decimal} (h : i.contains d.digits d.exponent) :
    i.contains (d.stripped fuel).digits (d.stripped fuel).exponent := by
  induction fuel generalizing d with
  | zero => exact h
  | succ fuel ih =>
    rw [stripped]
    split
    · rename_i hd
      refine ih (Interval.contains_of_ten_mul ?_)
      rwa [Nat.mul_div_cancel' (Nat.dvd_of_mod_eq_zero hd)]
    · exact h

theorem contains_shortest (tie : Tie) (h : Canonical m p) (hm : 0 < m) :
    (Interval.ofParts m p).contains (shortest tie m p).digits (shortest tie m p).exponent := by
  rw [shortest, if_neg hm.ne']
  exact contains_stripped 17 (contains_shortest_ofParts h hm)

theorem digits_shortest_pos (tie : Tie) (h : Canonical m p) (hm : 0 < m) :
    0 < (shortest tie m p).digits := by
  refine Nat.pos_of_ne_zero fun h0 => ?_
  have hlow := Binary64.Interval.two_le_low (p := p) hm
  have hunit : 0 < Nat.pow 10 (-(shortest tie m p).exponent).toNat := Nat.pow_pos (by omega)
  have hmul := Nat.mul_pos (show 0 < (Interval.ofParts m p).low by omega) hunit
  have hle := (Interval.contains_iff.mp (contains_shortest tie h hm)).1
  rw [h0, Nat.zero_mul, Nat.zero_mul, Nat.mul_zero] at hle
  omega

theorem shortest_ne_zero_or (tie : Tie) (h : Canonical m p) :
    (shortest tie m p).digits ≠ 0 ∨ (shortest tie m p).exponent = 0 := by
  rcases Nat.eq_zero_or_pos m with rfl | hm
  · exact Or.inr rfl
  · exact Or.inl (digits_shortest_pos tie h hm).ne'

end Stripped

end TallyRules.Decimal

namespace TallyRules.Binary64

/-- The shortest decimal of a number is rounded to the number. -/
theorem ofDecimal_shortest (tie : Decimal.Tie) (negative : Bool) {m p : Nat} (h : Canonical m p) :
    ofDecimal negative (Decimal.shortest tie m p).digits (Decimal.shortest tie m p).exponent =
      finite negative m p h := by
  rcases Nat.eq_zero_or_pos m with rfl | hm
  · obtain rfl : p = 0 := h.2.2.resolve_left (by decide)
    rfl
  · exact ofDecimal_of_contains negative h hm (Decimal.contains_shortest tie h hm)

end TallyRules.Binary64
