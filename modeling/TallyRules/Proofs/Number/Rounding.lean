import Mathlib.Tactic.Linarith
import Mathlib.Tactic.Ring
import TallyRules.Number.Shortest

/-! # Rounding to the nearest number

A ratio between the ends of the interval of a number is rounded to that number,
and so is each decimal in the interval. What a decimal is rounded to depends on
its value only, not on its digits.
-/

namespace TallyRules

namespace Binary64

theorem exists_unitsPerOne_eq : ∃ k, 52 ≤ k ∧ unitsPerOne = Nat.pow 2 k := by
  unfold unitsPerOne
  generalize hk : 1074 = k
  exact ⟨k, by omega, rfl⟩

theorem unitsPerOne_pos : 0 < unitsPerOne := by
  obtain ⟨k, -, hk⟩ := exists_unitsPerOne_eq
  rw [hk]
  exact Nat.two_pow_pos k

theorem roundDiv_eq {num den m : Nat} (hlo : 2 * m * den ≤ 2 * num + den)
    (hhi : 2 * num ≤ 2 * m * den + den)
    (hodd : m % 2 = 1 → 2 * m * den < 2 * num + den ∧ 2 * num < 2 * m * den + den)
    (hden : 0 < den) : roundDiv num den = m := by
  have hnum := Nat.div_add_mod num den
  have hr := Nat.mod_lt num hden
  simp only [roundDiv]
  generalize num / den = q at *
  generalize num % den = r at *
  have hq : q = m ∨ q + 1 = m := by
    rcases Nat.lt_trichotomy q m with h | h | h
    · right
      by_contra hne
      have : den * (q + 2) ≤ den * m := Nat.mul_le_mul_left den (by omega)
      nlinarith
    · exact Or.inl h
    · have : den * (m + 1) ≤ den * q := Nat.mul_le_mul_left den h
      nlinarith
  rcases hq with rfl | rfl
  · have hle : 2 * r ≤ den := by nlinarith
    have hlt : q % 2 = 1 → 2 * r < den := fun h => by nlinarith [(hodd h).2]
    split_ifs <;> omega
  · have hle : den ≤ 2 * r := by nlinarith
    have hlt : q % 2 = 0 → den < 2 * r := fun h => by nlinarith [(hodd (by omega)).1]
    split_ifs <;> omega

theorem roundDiv_mul_right (num den k : Nat) (hk : 0 < k) :
    roundDiv (num * k) (den * k) = roundDiv num den := by
  have hlt (a b : Nat) : 2 * (a * k) < b * k ↔ 2 * a < b := by
    rw [← Nat.mul_assoc]
    exact Nat.mul_lt_mul_right hk
  have hgt (a b : Nat) : b * k < 2 * (a * k) ↔ b < 2 * a := by
    rw [← Nat.mul_assoc]
    exact Nat.mul_lt_mul_right hk
  simp only [roundDiv, Nat.mul_div_mul_right _ _ hk, Nat.mul_mod_mul_right, hlt, hgt]

theorem roundUnits_mul_right (negative : Bool) (num den k : Nat) (hk : 0 < k) :
    roundUnits negative (num * k) (den * k) = roundUnits negative num den := by
  simp only [roundUnits, Nat.mul_div_mul_right _ _ hk, Nat.mul_right_comm den k,
    roundDiv_mul_right _ _ _ hk]

theorem decimalLength_le_iff {n k : Nat} (hk : 0 < k) : decimalLength n ≤ k ↔ n < 10 ^ k := by
  induction n using decimalLength.induct generalizing k with
  | case1 n h =>
    rw [decimalLength, if_pos h]
    have : 10 ^ 1 ≤ 10 ^ k := Nat.pow_le_pow_right (by omega) hk
    omega
  | case2 n h ih =>
    rw [decimalLength, if_neg h]
    obtain ⟨j, rfl⟩ : ∃ j, k = j + 1 := ⟨k - 1, by omega⟩
    rcases Nat.eq_zero_or_pos j with rfl | hj
    · have hpos : 0 < decimalLength (n / 10) := by
        rw [decimalLength]
        split <;> omega
      omega
    · have hi := ih hj
      rw [Nat.pow_succ, ← Nat.div_lt_iff_lt_mul (by omega), ← hi]
      omega

theorem decimalLength_pos (n : Nat) : 0 < decimalLength n := by
  rw [decimalLength]
  split <;> omega

theorem lt_pow_decimalLength (n : Nat) : n < 10 ^ decimalLength n :=
  (decimalLength_le_iff (decimalLength_pos n)).mp (Nat.le_refl _)

theorem pow_decimalLength_le {n : Nat} (hn : 0 < n) : 10 ^ (decimalLength n - 1) ≤ n := by
  rcases Nat.lt_or_ge 1 (decimalLength n) with h | h
  · by_contra hlt
    have := (decimalLength_le_iff (n := n) (k := decimalLength n - 1) (by omega)).mpr (by omega)
    omega
  · have : decimalLength n - 1 = 0 := by omega
    rw [this]
    exact hn

theorem decimalLength_ten_mul {m : Nat} (hm : 0 < m) :
    decimalLength (10 * m) = decimalLength m + 1 := by
  rw [decimalLength, if_neg (by omega), Nat.mul_div_cancel_left m (by omega)]

theorem ofDecimal_ten_mul (negative : Bool) (m : Nat) (e : Int) :
    ofDecimal negative (10 * m) e = ofDecimal negative m (e + 1) := by
  rcases Nat.eq_zero_or_pos m with rfl | hm
  · simp [ofDecimal]
  · have hlen : (decimalLength (10 * m) : Int) + e = decimalLength m + (e + 1) := by
      rw [decimalLength_ten_mul hm]
      push_cast
      ring
    have hround : round negative (10 * m * Nat.pow 10 e.toNat) (Nat.pow 10 (-e).toNat) =
        round negative (m * Nat.pow 10 (e + 1).toNat) (Nat.pow 10 (-(e + 1)).toNat) := by
      rcases lt_or_ge e 0 with he | he
      · obtain ⟨k, rfl⟩ : ∃ k : Nat, e = -(k + 1 : Int) := ⟨(-e - 1).toNat, by omega⟩
        have h₁ : (-(k + 1 : Int)).toNat = 0 := by omega
        have h₂ : (-(k + 1 : Int) + 1).toNat = 0 := by omega
        have h₃ : (-(-(k + 1 : Int))).toNat = k + 1 := by omega
        have h₄ : (-(-(k + 1 : Int) + 1)).toNat = k := by omega
        have hnum (u : Nat) : 10 * m * Nat.pow 10 0 * u = m * Nat.pow 10 0 * u * 10 := by ring
        have hden : Nat.pow 10 (k + 1) = Nat.pow 10 k * 10 := rfl
        rw [h₁, h₂, h₃, h₄, round, round, hnum, hden, roundUnits_mul_right _ _ _ _ (by omega)]
      · have h₁ : (e + 1).toNat = e.toNat + 1 := by omega
        have h₂ : (-e).toNat = 0 := by omega
        have h₃ : (-(e + 1)).toNat = 0 := by omega
        have hnum : 10 * m * Nat.pow 10 e.toNat = m * Nat.pow 10 (e.toNat + 1) := by
          simp only [Nat.pow_eq, Nat.pow_succ]
          ring
        rw [h₁, h₂, h₃, hnum]
    simp only [ofDecimal, hlen, hround, Nat.mul_eq_zero, OfNat.ofNat_ne_zero, false_or]

theorem ofDecimal_pow_mul (negative : Bool) (m k : Nat) (e : Int) :
    ofDecimal negative (10 ^ k * m) e = ofDecimal negative m (e + k) := by
  induction k generalizing e with
  | zero => simp
  | succ k ih =>
    rw [Nat.pow_succ', Nat.mul_assoc, ofDecimal_ten_mul, ih]
    congr 1
    push_cast
    ring

end Binary64

namespace Decimal.Interval

variable {i : Interval} {m p num den : Nat}

/-- A ratio, counted in units, lies in an interval. -/
def Holds (i : Interval) (num den : Nat) : Prop :=
  i.low * den ≤ 4 * num ∧ 4 * num ≤ i.high * den ∧
    (i.closed = false → i.low * den < 4 * num ∧ 4 * num < i.high * den)

theorem contains_iff {digits : Nat} {e : Int} :
    i.contains digits e ↔
      i.Holds (digits * Nat.pow 10 e.toNat * Binary64.unitsPerOne) (Nat.pow 10 (-e).toNat) := by
  have hq : digits * Nat.pow 10 e.toNat * quartersPerOne =
      4 * (digits * Nat.pow 10 e.toNat * Binary64.unitsPerOne) := by
    rw [quartersPerOne]
    ring
  simp only [contains, hq, Holds]
  cases i.closed with
  | true => simp
  | false =>
    simp only [Bool.false_eq_true, if_false, Bool.and_eq_true, decide_eq_true_eq, true_implies]
    omega

end Decimal.Interval

namespace Binary64

open Decimal (Interval)

variable {m p num den : Nat}

theorem Interval.Holds.bounds (h : (Interval.ofParts m p).Holds num den) :
    2 * m * (den * Nat.pow 2 p) ≤ 2 * num + den * Nat.pow 2 p ∧
      2 * num ≤ 2 * m * (den * Nat.pow 2 p) + den * Nat.pow 2 p ∧
      (m % 2 = 1 → 2 * m * (den * Nat.pow 2 p) < 2 * num + den * Nat.pow 2 p ∧
        2 * num < 2 * m * (den * Nat.pow 2 p) + den * Nat.pow 2 p) := by
  obtain ⟨hlo, hhi, hopen⟩ := h
  have hlow : 4 * m * Nat.pow 2 p ≤ (Interval.ofParts m p).low + 2 * Nat.pow 2 p := by
    simp only [Interval.ofParts]
    split <;> omega
  have hhigh : (Interval.ofParts m p).high = 4 * m * Nat.pow 2 p + 2 * Nat.pow 2 p := rfl
  have hclosed : m % 2 = 1 → (Interval.ofParts m p).closed = false := by
    intro hm
    simp [Interval.ofParts, hm]
  rw [hhigh] at hhi hopen
  generalize (Interval.ofParts m p).low = low at *
  generalize Nat.pow 2 p = s at *
  have hmul := Nat.mul_le_mul_right den hlow
  refine ⟨by nlinarith, by nlinarith, fun hm => ?_⟩
  obtain ⟨hl, hh⟩ := hopen (hclosed hm)
  constructor <;> nlinarith

theorem pow_add_mul (k p den : Nat) :
    2 ^ (k + p) * den = 2 ^ k * (den * Nat.pow 2 p) := by
  rw [pow_add, Nat.pow_eq]
  ring

theorem log2_sub_eq {q : Nat} (hlt : q < 2 ^ (53 + p)) (hge : p = 0 ∨ 2 ^ (52 + p) ≤ q) :
    q.log2 - 52 = p := by
  rcases Nat.eq_zero_or_pos q with rfl | hq
  · rcases hge with rfl | hge
    · rfl
    · exact absurd hge (Nat.not_le.mpr (Nat.two_pow_pos _))
  · have hlt := (Nat.log2_lt hq.ne').mpr hlt
    rcases hge with rfl | hge
    · omega
    · have hge := (Nat.le_log2 hq.ne').mpr hge
      omega

theorem roundUnits_of_regular (negative : Bool) (h : Canonical m p) (hden : 0 < den)
    (hi : (Interval.ofParts m p).Holds num den)
    (hr : p = 0 ∨ 2 ^ (52 + p) * den ≤ num) :
    roundUnits negative num den = finite negative m p h := by
  obtain ⟨hlo, hhi, hodd⟩ := Interval.Holds.bounds hi
  have hpos : 0 < den * Nat.pow 2 p := Nat.mul_pos hden (Nat.two_pow_pos p)
  have hlt : num / den < 2 ^ (53 + p) := by
    have hm : (m + 1) * (den * Nat.pow 2 p) ≤ 2 ^ 53 * (den * Nat.pow 2 p) :=
      Nat.mul_le_mul_right _ h.1
    rw [Nat.div_lt_iff_lt_mul hden, pow_add_mul]
    linarith
  have hscale : (num / den).log2 - 52 = p :=
    log2_sub_eq hlt (hr.imp_right (Nat.le_div_iff_mul_le hden).mpr)
  rw [roundUnits, hscale, roundDiv_eq hlo hhi hodd hpos, ofParts, dif_pos h]

/-- Just below a power of two the scale is one less. -/
theorem roundUnits_of_boundary (negative : Bool) (h : Canonical (Nat.pow 2 52) (p + 1))
    (hden : 0 < den) (hi : (Interval.ofParts (Nat.pow 2 52) (p + 1)).Holds num den)
    (hr : num < 2 ^ (53 + p) * den) :
    roundUnits negative num den = finite negative (Nat.pow 2 52) (p + 1) h := by
  have hpos : 0 < den * Nat.pow 2 p := Nat.mul_pos hden (Nat.two_pow_pos p)
  have hpow : Nat.pow 2 (p + 1) = 2 * Nat.pow 2 p := pow_succ' 2 p
  have hlow : (Interval.ofParts (Nat.pow 2 52) (p + 1)).low + 2 * Nat.pow 2 p =
      2 ^ 55 * Nat.pow 2 p := by
    simp only [Interval.ofParts, hpow]
    norm_num
    omega
  have hlo : 2 ^ 55 * (den * Nat.pow 2 p) ≤ 4 * num + 2 * (den * Nat.pow 2 p) := by
    have hmul : ((Interval.ofParts (Nat.pow 2 52) (p + 1)).low + 2 * Nat.pow 2 p) * den =
        2 ^ 55 * Nat.pow 2 p * den := by rw [hlow]
    have := hi.1
    linarith
  have hhi : num < 2 ^ 53 * (den * Nat.pow 2 p) := by rwa [pow_add_mul] at hr
  have hscale : (num / den).log2 - 52 = p := by
    refine log2_sub_eq ((Nat.div_lt_iff_lt_mul hden).mpr hr)
      (Or.inr ((Nat.le_div_iff_mul_le hden).mpr ?_))
    rw [pow_add_mul]
    linarith
  -- the ratio is rounded up to the power of two, which only the next scale can hold
  have hround : roundDiv num (den * Nat.pow 2 p) = 2 ^ 53 :=
    roundDiv_eq (by linarith) (by linarith) (fun hm => absurd hm (by decide)) hpos
  have hcarry : ¬ Canonical (2 ^ 53) p := fun hc => Nat.lt_irrefl _ hc.1
  rw [roundUnits, hscale, hround, ofParts, dif_neg hcarry]
  exact dif_pos h

theorem roundUnits_of_holds (negative : Bool) (h : Canonical m p) (hden : 0 < den)
    (hi : (Interval.ofParts m p).Holds num den) :
    roundUnits negative num den = finite negative m p h := by
  rcases Nat.lt_or_ge num (2 ^ (52 + p) * den) with hr | hr
  · cases p with
    | zero => exact roundUnits_of_regular negative h hden hi (Or.inl rfl)
    | succ p =>
      have hm : Nat.pow 2 52 ≤ m := h.2.2.resolve_right (by omega)
      rcases Nat.lt_or_ge (Nat.pow 2 52) m with hlt | hge
      · -- above the power of two the interval does not reach down to it
        obtain ⟨hlo, -, -⟩ := Interval.Holds.bounds hi
        have hmul : (Nat.pow 2 52 + 1) * (den * Nat.pow 2 (p + 1)) ≤
            m * (den * Nat.pow 2 (p + 1)) := Nat.mul_le_mul_right _ hlt
        have hs : 2 ^ (52 + (p + 1)) * den = Nat.pow 2 52 * (den * Nat.pow 2 (p + 1)) :=
          pow_add_mul 52 (p + 1) den
        exfalso
        linarith
      · obtain rfl : m = Nat.pow 2 52 := by omega
        exact roundUnits_of_boundary negative h hden hi
          (by rwa [show 53 + p = 52 + (p + 1) by omega])
  · exact roundUnits_of_regular negative h hden hi (Or.inr hr)

variable {digits : Nat} {e : Int}

theorem four_mul_pow_le (hm : 0 < m) (p : Nat) : 4 * Nat.pow 2 p ≤ 4 * m * Nat.pow 2 p :=
  Nat.mul_le_mul_right _ (by omega)

theorem Interval.two_le_low (hm : 0 < m) : 2 ≤ (Interval.ofParts m p).low := by
  have hs : 0 < Nat.pow 2 p := Nat.two_pow_pos p
  have hmul := four_mul_pow_le hm p
  simp only [Interval.ofParts]
  split <;> omega

theorem pow_mul_pow_le {k : Nat} (hd : 0 < digits) (hk : k < decimalLength digits + e) :
    Nat.pow 10 k * Nat.pow 10 (-e).toNat ≤ digits * Nat.pow 10 e.toNat := by
  calc Nat.pow 10 k * Nat.pow 10 (-e).toNat
      = 10 ^ (k + (-e).toNat) := (pow_add 10 k _).symm
    _ ≤ 10 ^ (decimalLength digits - 1 + e.toNat) := Nat.pow_le_pow_right (by omega) (by omega)
    _ = 10 ^ (decimalLength digits - 1) * Nat.pow 10 e.toNat := pow_add 10 _ _
    _ ≤ digits * Nat.pow 10 e.toNat := Nat.mul_le_mul_right _ (pow_decimalLength_le hd)

theorem mul_pow_lt_pow {k : Nat} (hk : decimalLength digits + e + k ≤ 0) :
    digits * Nat.pow 10 e.toNat * Nat.pow 10 k < Nat.pow 10 (-e).toNat := by
  have hpow (j : Nat) : 0 < Nat.pow 10 j := Nat.pow_pos (by omega)
  calc digits * Nat.pow 10 e.toNat * Nat.pow 10 k
      < 10 ^ decimalLength digits * Nat.pow 10 e.toNat * Nat.pow 10 k :=
        (Nat.mul_lt_mul_right (hpow k)).mpr
          ((Nat.mul_lt_mul_right (hpow _)).mpr (lt_pow_decimalLength digits))
    _ = 10 ^ (decimalLength digits + e.toNat + k) := by
        rw [pow_add, pow_add, Nat.pow_eq, Nat.pow_eq]
    _ ≤ Nat.pow 10 (-e).toNat := Nat.pow_le_pow_right (by omega) (by omega)

/-- A decimal in an interval is not too great to be rounded. -/
theorem decimalLength_add_le (h : Canonical m p) (hd : 0 < digits)
    (hc : (Interval.ofParts m p).contains digits e) : decimalLength digits + e ≤ 310 := by
  by_contra hlt
  obtain ⟨-, hhi, -⟩ := Interval.contains_iff.mp hc
  have hhigh : (Interval.ofParts m p).high ≤ 4 * (unitsPerOne * Nat.pow 2 1024) := by
    have hm : 4 * m + 2 ≤ 4 * Nat.pow 2 53 := by
      have := h.1
      omega
    obtain ⟨k, hk⟩ : ∃ k, k = 2045 := ⟨_, rfl⟩
    have hs : Nat.pow 2 p ≤ Nat.pow 2 k := Nat.pow_le_pow_right (by omega) (hk ▸ h.2.1)
    have hu : 4 * (unitsPerOne * Nat.pow 2 1024) = 4 * Nat.pow 2 53 * Nat.pow 2 k := by
      rw [hk]
      decide +kernel
    rw [hu]
    refine le_trans (le_of_eq ?_) (Nat.mul_le_mul hm hs)
    rw [Nat.add_mul]
    rfl
  obtain ⟨k, hk⟩ : ∃ k : Nat, k = 310 := ⟨_, rfl⟩
  have hlen : Nat.pow 10 k * Nat.pow 10 (-e).toNat ≤ digits * Nat.pow 10 e.toNat :=
    pow_mul_pow_le hd (by omega)
  have hten : Nat.pow 2 1024 < Nat.pow 10 k := by
    rw [hk]
    decide +kernel
  have hU := unitsPerOne_pos
  have hN : 0 < Nat.pow 10 (-e).toNat := Nat.pow_pos (by omega)
  -- the powers get names, or the arithmetic would compute them
  generalize Nat.pow 10 e.toNat = P at *
  generalize Nat.pow 10 (-e).toNat = N at *
  generalize unitsPerOne = U at *
  generalize Nat.pow 2 1024 = K at *
  generalize Nat.pow 10 k = T at *
  have h₁ : digits * P * U ≤ K * N * U := by
    have := Nat.mul_le_mul_right N hhigh
    linarith
  have h₂ : digits * P ≤ K * N := Nat.le_of_mul_le_mul_right h₁ hU
  have h₃ : K * N < T * N := (Nat.mul_lt_mul_right hN).mpr hten
  omega

theorem le_decimalLength_add (hm : 0 < m) (hc : (Interval.ofParts m p).contains digits e) :
    -330 ≤ decimalLength digits + e := by
  by_contra hlt
  obtain ⟨hlo, -, -⟩ := Interval.contains_iff.mp hc
  have hlow := Interval.two_le_low (p := p) hm
  obtain ⟨k, hk⟩ : ∃ k : Nat, k = 330 := ⟨_, rfl⟩
  have hlen : digits * Nat.pow 10 e.toNat * Nat.pow 10 k < Nat.pow 10 (-e).toNat :=
    mul_pow_lt_pow (by omega)
  have hten : 2 * unitsPerOne ≤ Nat.pow 10 k := by
    rw [hk]
    decide +kernel
  generalize Nat.pow 10 e.toNat = P at *
  generalize Nat.pow 10 (-e).toNat = N at *
  generalize unitsPerOne = U at *
  generalize Nat.pow 10 k = T at *
  have h₁ := Nat.mul_le_mul_right N hlow
  have h₂ := Nat.mul_le_mul_left (digits * P) hten
  linarith

/-- A decimal in the interval of a number is rounded to that number. -/
theorem ofDecimal_of_contains (negative : Bool) (h : Canonical m p) (hm : 0 < m)
    (hc : (Interval.ofParts m p).contains digits e) :
    ofDecimal negative digits e = finite negative m p h := by
  have hlo := le_decimalLength_add hm hc
  have hd : 0 < digits := by
    by_contra hd
    obtain rfl : digits = 0 := by omega
    have hlow := Interval.two_le_low (p := p) hm
    have hN : 0 < Nat.pow 10 (-e).toNat := Nat.pow_pos (by omega)
    have := (Interval.contains_iff.mp hc).1
    rw [Nat.zero_mul, Nat.zero_mul] at this
    have := Nat.mul_pos (by omega : 0 < (Interval.ofParts m p).low) hN
    omega
  have hhi := decimalLength_add_le h hd hc
  rw [ofDecimal, if_neg (by omega), if_neg (by omega), if_neg (by omega), round]
  exact roundUnits_of_holds negative h (Nat.pow_pos (by omega)) (Interval.contains_iff.mp hc)

end Binary64

end TallyRules
