import TallyRules.Proofs.Number.Shortest

/-! # The range of finite numbers

A ratio is rounded to a finite number if it is less than a half of the last
place above the greatest one. The error is a half of the last place at most, so
that the product of a rounded integer and a rounded power of ten is still
finite if the exact product is not too near to the limit.
-/

namespace TallyRules.Binary64

open Decimal (Interval)

variable {num den : Nat}

/-- Where rounding goes on to infinity, in units: a half of the last place above the greatest
finite number. -/
def limit : Nat := (Nat.pow 2 54 - 1) * Nat.pow 2 2044

theorem two_mul_limit {k : Nat} (hk : k = 2045) :
    2 * limit = (Nat.pow 2 54 - 1) * Nat.pow 2 k := by
  unfold limit
  generalize hj : 2044 = j
  have hpow : Nat.pow 2 (j + 1) = 2 * Nat.pow 2 j := pow_succ' 2 j
  rw [show k = j + 1 by omega, hpow, Nat.mul_left_comm]

theorem limit_lt : limit < 2 ^ 2098 := by
  unfold limit
  generalize hk : 2044 = k
  rw [show 2098 = 54 + k by omega, pow_add]
  exact (Nat.mul_lt_mul_right (Nat.two_pow_pos k)).mpr (by decide)

theorem two_mul_roundDiv_le (num den : Nat) :
    2 * (roundDiv num den * den) ≤ 2 * num + den ∧ num / den ≤ roundDiv num den := by
  have hdiv := Nat.div_add_mod num den
  rw [Nat.mul_comm] at hdiv
  simp only [roundDiv]
  generalize num / den = q at *
  generalize num % den = r at *
  have hnext : (q + 1) * den = q * den + den := Nat.succ_mul q den
  split
  · omega
  · split
    · rw [hnext]
      omega
    · rcases Nat.mod_two_eq_zero_or_one q with hq | hq <;> rw [hq]
      · rw [Nat.add_zero]
        omega
      · rw [hnext]
        omega

theorem units?_ofParts (negative : Bool) {r s : Nat} (hr : r ≤ Nat.pow 2 53)
    (hs : s < 2045 ∨ s = 2045 ∧ r < Nat.pow 2 53) (hn : s = 0 ∨ Nat.pow 2 52 ≤ r) :
    (ofParts negative r s).units? = some (r * Nat.pow 2 s) := by
  rcases Nat.lt_or_ge r (Nat.pow 2 53) with hlt | hge
  · have hc : Canonical r s := ⟨hlt, by omega, hn.symm⟩
    rw [ofParts, dif_pos hc]
    rfl
  · obtain rfl : r = Nat.pow 2 53 := by omega
    have hcarry : ¬ Canonical (Nat.pow 2 53) s := fun hc => Nat.lt_irrefl _ hc.1
    have hc : Canonical (Nat.pow 2 53 / 2) (s + 1) :=
      ⟨by decide, by omega, Or.inl (by decide)⟩
    rw [ofParts, dif_neg hcarry, dif_pos hc, units?]
    have hhalf : Nat.pow 2 53 / 2 * Nat.pow 2 (s + 1) = Nat.pow 2 53 * Nat.pow 2 s := by
      have hpow : Nat.pow 2 (s + 1) = 2 * Nat.pow 2 s := pow_succ' 2 s
      rw [hpow, ← Nat.mul_assoc]
    rw [hhalf]

section LastPlace

/-- The place that a ratio is rounded at: that of its fifty-third binary digit, or that of the
units. -/
def lastPlace (num den : Nat) : Nat :=
  (num / den).log2 - 52

theorem lt_lastPlace (hden : 0 < den) :
    num < Nat.pow 2 53 * (den * Nat.pow 2 (lastPlace num den)) := by
  have hlog : num / den < 2 ^ (53 + lastPlace num den) := by
    refine Nat.lt_of_lt_of_le Nat.lt_log2_self (Nat.pow_le_pow_right (by omega) ?_)
    unfold lastPlace
    omega
  rw [Nat.pow_eq, ← pow_add_mul]
  exact (Nat.div_lt_iff_lt_mul hden).mp hlog

theorem lastPlace_le_of_ne_zero (hden : 0 < den) (hs : lastPlace num den ≠ 0) :
    Nat.pow 2 52 * (den * Nat.pow 2 (lastPlace num den)) ≤ num := by
  unfold lastPlace at *
  have hne : num / den ≠ 0 := by
    intro h0
    rw [h0] at hs
    exact hs rfl
  have hlog : 2 ^ (52 + ((num / den).log2 - 52)) ≤ num / den := (Nat.le_log2 hne).mp (by omega)
  rw [Nat.pow_eq, ← pow_add_mul]
  exact (Nat.le_div_iff_mul_le hden).mp hlog

theorem lastPlace_le (hden : 0 < den) (h : num < limit * den) : lastPlace num den ≤ 2045 := by
  have hdiv : num / den < limit := (Nat.div_lt_iff_lt_mul hden).mpr h
  unfold lastPlace
  rcases Nat.eq_zero_or_pos (num / den) with h0 | hq
  · rw [h0]
    decide
  · have hlog := (Nat.log2_lt hq.ne').mpr (hdiv.trans limit_lt)
    omega

theorem roundDiv_lastPlace_le (hden : 0 < den) :
    roundDiv num (den * Nat.pow 2 (lastPlace num den)) ≤ Nat.pow 2 53 := by
  have hbelow : num < Nat.pow 2 53 * (den * Nat.pow 2 (lastPlace num den)) := lt_lastPlace hden
  obtain ⟨hround, -⟩ := two_mul_roundDiv_le num (den * Nat.pow 2 (lastPlace num den))
  generalize den * Nat.pow 2 (lastPlace num den) = d at *
  by_contra hr
  have hmul : (Nat.pow 2 53 + 1) * d ≤ roundDiv num d * d := Nat.mul_le_mul_right _ (by omega)
  linarith

/-- Below the limit there is no carry out of the last place of the greatest numbers. -/
theorem roundDiv_lt_of_lastPlace (h : num < limit * den) (hs : lastPlace num den = 2045) :
    roundDiv num (den * Nat.pow 2 (lastPlace num den)) < Nat.pow 2 53 := by
  by_contra hge
  obtain ⟨hround, -⟩ := two_mul_roundDiv_le num (den * Nat.pow 2 (lastPlace num den))
  have htop := two_mul_limit hs
  have hnum : 2 * num < (Nat.pow 2 54 - 1) * (den * Nat.pow 2 (lastPlace num den)) := by
    calc 2 * num < 2 * limit * den := by linarith
      _ = (Nat.pow 2 54 - 1) * (den * Nat.pow 2 (lastPlace num den)) := by rw [htop]; ring
  generalize den * Nat.pow 2 (lastPlace num den) = d at *
  have hmul : Nat.pow 2 53 * d ≤ roundDiv num d * d := Nat.mul_le_mul_right _ (by omega)
  have h₅₃ : Nat.pow 2 53 = 9007199254740992 := rfl
  have h₅₄ : Nat.pow 2 54 - 1 = 18014398509481983 := rfl
  rw [h₅₃] at hmul
  rw [h₅₄] at hnum
  omega

end LastPlace

theorem exists_units?_roundUnits (negative : Bool) (hden : 0 < den) (h : num < limit * den) :
    ∃ r s, (roundUnits negative num den).units? = some (r * Nat.pow 2 s) ∧
      2 * (r * (den * Nat.pow 2 s)) ≤ 2 * num + den * Nat.pow 2 s ∧
      num / (den * Nat.pow 2 s) ≤ r ∧
      (s = 0 ∨ Nat.pow 2 52 * (den * Nat.pow 2 s) ≤ num) := by
  have hpos : 0 < den * Nat.pow 2 (lastPlace num den) := Nat.mul_pos hden (Nat.two_pow_pos _)
  obtain ⟨hround, hfloor⟩ := two_mul_roundDiv_le num (den * Nat.pow 2 (lastPlace num den))
  have hnormal : lastPlace num den = 0 ∨
      Nat.pow 2 52 * (den * Nat.pow 2 (lastPlace num den)) ≤ num :=
    or_iff_not_imp_left.mpr (lastPlace_le_of_ne_zero hden)
  refine ⟨_, _, units?_ofParts negative (roundDiv_lastPlace_le hden) ?_ ?_, hround, hfloor, hnormal⟩
  · exact (Nat.lt_or_eq_of_le (lastPlace_le hden h)).imp_right fun hs =>
      ⟨hs, roundDiv_lt_of_lastPlace h hs⟩
  · exact hnormal.imp_right fun hn => ((Nat.le_div_iff_mul_le hpos).mpr hn).trans hfloor

/-- A ratio that is not below the least normal number is rounded by a half of its last place at
most, relative to it. -/
theorem units?_roundUnits_le {u : Nat} {negative : Bool} (hden : 0 < den) (h : num < limit * den)
    (hn : Nat.pow 2 52 * den ≤ num) (hu : (roundUnits negative num den).units? = some u) :
    Nat.pow 2 53 * (u * den) ≤ (Nat.pow 2 53 + 1) * num := by
  obtain ⟨r, s, hr, hround, -, hnormal⟩ := exists_units?_roundUnits negative hden h
  obtain rfl : r * Nat.pow 2 s = u := Option.some.inj (hr.symm.trans hu)
  have hd : Nat.pow 2 52 * (den * Nat.pow 2 s) ≤ num := by
    rcases hnormal with rfl | hnormal
    · rwa [show Nat.pow 2 0 = 1 from rfl, Nat.mul_one]
    · exact hnormal
  have hassoc : r * Nat.pow 2 s * den = r * (den * Nat.pow 2 s) := by ring
  have h₅₂ : Nat.pow 2 52 = 4503599627370496 := rfl
  have h₅₃ : Nat.pow 2 53 = 9007199254740992 := rfl
  rw [hassoc, h₅₃]
  rw [h₅₂] at hd
  generalize r * (den * Nat.pow 2 s) = x at *
  generalize den * Nat.pow 2 s = d at *
  omega

theorem le_units?_roundUnits {u k : Nat} {negative : Bool} (hden : 0 < den)
    (h : num < limit * den) (hk : Nat.pow 2 k * den ≤ num)
    (hu : (roundUnits negative num den).units? = some u) : Nat.pow 2 k ≤ u := by
  obtain ⟨r, s, hr, -, hfloor, hnormal⟩ := exists_units?_roundUnits negative hden h
  obtain rfl : r * Nat.pow 2 s = u := Option.some.inj (hr.symm.trans hu)
  have hd : 0 < den * Nat.pow 2 s := Nat.mul_pos hden (Nat.two_pow_pos s)
  rcases Nat.lt_or_ge k s with hlt | hge
  · have hnormal : Nat.pow 2 52 * (den * Nat.pow 2 s) ≤ num := hnormal.resolve_left (by omega)
    have hpos : 0 < r := by
      have := (Nat.le_div_iff_mul_le hd).mpr hnormal
      have h₅₂ : 0 < Nat.pow 2 52 := by decide
      omega
    calc Nat.pow 2 k ≤ Nat.pow 2 s := Nat.pow_le_pow_right (by omega) hlt.le
      _ ≤ r * Nat.pow 2 s := Nat.le_mul_of_pos_left _ hpos
  · have hpow : Nat.pow 2 k = Nat.pow 2 (k - s) * Nat.pow 2 s := by
      rw [Nat.pow_eq, Nat.pow_eq, Nat.pow_eq, ← pow_add, Nat.sub_add_cancel hge]
    have hle : Nat.pow 2 (k - s) * (den * Nat.pow 2 s) ≤ num := by
      calc Nat.pow 2 (k - s) * (den * Nat.pow 2 s)
          = Nat.pow 2 k * den := by rw [hpow]; ring
        _ ≤ num := hk
    rw [hpow]
    exact Nat.mul_le_mul_right _ (((Nat.le_div_iff_mul_le hd).mpr hle).trans hfloor)

section Operations

variable {x y : Binary64} {a b n : Nat}

theorem exists_scaleBy (hx : x.units? = some a) (hy : y.units? = some b) :
    ∃ negative, x.scaleBy y = roundUnits negative (a * b) unitsPerOne := by
  cases x with
  | finite negative m p _ =>
    cases y with
    | finite _ n q _ =>
      cases hx
      cases hy
      exact ⟨negative, rfl⟩
    | infinite _ => cases hy
    | nan => cases hy
  | infinite _ => cases hx
  | nan => cases hx

theorem exists_divideBy (hx : x.units? = some a) (hy : y.units? = some b) :
    ∃ negative, x.divideBy y = roundUnits negative (a * unitsPerOne) b := by
  cases x with
  | finite negative m p _ =>
    cases y with
    | finite _ n q _ =>
      cases hx
      cases hy
      exact ⟨negative, rfl⟩
    | infinite _ => cases hy
    | nan => cases hy
  | infinite _ => cases hx
  | nan => cases hx

theorem units?_lt_limit (hx : x.units? = some a) : a < limit := by
  cases x with
  | finite negative m p h =>
    cases hx
    have hm : m ≤ Nat.pow 2 53 - 1 := Nat.le_sub_one_of_lt h.1
    obtain ⟨k, hk⟩ : ∃ k, k = 2045 := ⟨_, rfl⟩
    have hlimit := two_mul_limit hk
    have hs : Nat.pow 2 p ≤ Nat.pow 2 k := Nat.pow_le_pow_right (by omega) (hk ▸ h.2.1)
    have hmax : 2 * ((Nat.pow 2 53 - 1) * Nat.pow 2 k) < 2 * limit := by
      rw [hlimit, ← Nat.mul_assoc]
      exact (Nat.mul_lt_mul_right (Nat.two_pow_pos k)).mpr (by decide)
    exact (Nat.mul_le_mul hm hs).trans_lt (Nat.lt_of_mul_lt_mul_left hmax)
  | infinite _ => cases hx
  | nan => cases hx

theorem exists_units?_ofNat (hn : n ≤ Nat.pow 10 308) : ∃ u, (ofNat n).units? = some u ∧
    (0 < n → Nat.pow 2 53 * u ≤ (Nat.pow 2 53 + 1) * (n * unitsPerOne) ∧ unitsPerOne ≤ u) := by
  have hlimit : n * unitsPerOne < limit * 1 := by
    have hmax : Nat.pow 10 308 * unitsPerOne < limit := by decide +kernel
    rw [Nat.mul_one]
    exact (Nat.mul_le_mul_right unitsPerOne hn).trans_lt hmax
  obtain ⟨r, s, hu, -⟩ := exists_units?_roundUnits false Nat.one_pos hlimit
  refine ⟨_, hu, fun hpos => ?_⟩
  have hone : unitsPerOne ≤ n * unitsPerOne := Nat.le_mul_of_pos_left _ hpos
  obtain ⟨k, hk, hunits⟩ := exists_unitsPerOne_eq
  have hunit : Nat.pow 2 k * 1 ≤ n * unitsPerOne :=
    (Nat.mul_one (Nat.pow 2 k)).trans_le (hunits.symm.trans_le hone)
  have hnormal : Nat.pow 2 52 * 1 ≤ n * unitsPerOne :=
    (Nat.mul_le_mul_right 1 (Nat.pow_le_pow_right (by omega) hk)).trans hunit
  constructor
  · have hle := units?_roundUnits_le Nat.one_pos hlimit hnormal hu
    rwa [Nat.mul_one] at hle
  · exact hunits ▸ le_units?_roundUnits Nat.one_pos hlimit hunit hu

theorem isSome_divideBy (hx : x.units?.isSome) (hy : y.units? = some b) (hb : unitsPerOne ≤ b) :
    (x.divideBy y).units?.isSome := by
  obtain ⟨a, ha⟩ := Option.isSome_iff_exists.mp hx
  obtain ⟨negative, hquotient⟩ := exists_divideBy ha hy
  have hU := unitsPerOne_pos
  have hlimit : a * unitsPerOne < limit * b := by
    calc a * unitsPerOne < limit * unitsPerOne := (Nat.mul_lt_mul_right hU).mpr (units?_lt_limit ha)
      _ ≤ limit * b := Nat.mul_le_mul_left _ hb
  obtain ⟨r, s, hu, -⟩ := exists_units?_roundUnits negative (hU.trans_le hb) hlimit
  rw [hquotient, hu]
  rfl

theorem pow_ten_le (hn : n ≤ 308) : Nat.pow 10 n ≤ Nat.pow 10 308 := by
  obtain ⟨k, hk⟩ : ∃ k, k = 308 := ⟨_, rfl⟩
  rw [← hk] at hn ⊢
  exact Nat.pow_le_pow_right (by omega) hn

theorem size_le_pow_ten : UInt64.size ≤ Nat.pow 10 308 :=
  (by decide : UInt64.size ≤ Nat.pow 10 20).trans (pow_ten_le (by omega))

theorem isSome_ofNat (hn : n < UInt64.size) : (ofNat n).units?.isSome := by
  obtain ⟨u, hu, -⟩ := exists_units?_ofNat (hn.le.trans size_le_pow_ten)
  rw [hu]
  rfl

theorem powerOfTen_eq (hn : n ≤ 308) : powerOfTen n = ofNat (Nat.pow 10 n) := by
  have hlength : decimalLength 1 = 1 := by
    rw [decimalLength]
    rfl
  have hzero : (-(n : Int)).toNat = 0 := by omega
  rw [powerOfTen, ofDecimal, if_neg (by decide), hlength, if_neg (by omega), if_neg (by omega),
    ofNat, Int.toNat_natCast, Nat.one_mul, hzero, show Nat.pow 10 0 = 1 from rfl]

theorem exists_units?_powerOfTen (hn : n ≤ 308) : ∃ u, (powerOfTen n).units? = some u ∧
    Nat.pow 2 53 * u ≤ (Nat.pow 2 53 + 1) * (Nat.pow 10 n * unitsPerOne) ∧ unitsPerOne ≤ u := by
  obtain ⟨u, hu, hpower⟩ := exists_units?_ofNat (pow_ten_le hn)
  exact ⟨u, powerOfTen_eq hn ▸ hu, hpower (Nat.pow_pos (by omega))⟩

theorem isSome_divideBy_powerOfTen (hx : x.units?.isSome) (hn : n ≤ 308) :
    (x.divideBy (powerOfTen n)).units?.isSome := by
  obtain ⟨b, hb, -, hone⟩ := exists_units?_powerOfTen hn
  exact isSome_divideBy hx hb hone

end Operations

section Products

variable {digits k m p : Nat}

/-- What a product may reach whose factors are rounded before it is, in quarters of a unit: two and
a half of the last place below the greatest finite number. -/
def productLimit : Nat := (Nat.pow 2 55 - 10) * Nat.pow 2 2045

theorem productLimit_lt_limit : (Nat.pow 2 53 + 1) * (Nat.pow 2 53 + 1) * productLimit <
    4 * (Nat.pow 2 53 * Nat.pow 2 53) * limit := by
  unfold productLimit
  generalize hk : 2045 = k
  have hlimit := two_mul_limit hk.symm
  have hpos : 0 < Nat.pow 2 k := Nat.two_pow_pos k
  generalize Nat.pow 2 k = P at *
  calc (Nat.pow 2 53 + 1) * (Nat.pow 2 53 + 1) * ((Nat.pow 2 55 - 10) * P)
      = (Nat.pow 2 53 + 1) * (Nat.pow 2 53 + 1) * (Nat.pow 2 55 - 10) * P :=
        (Nat.mul_assoc _ _ _).symm
    _ < 2 * (Nat.pow 2 53 * Nat.pow 2 53) * (Nat.pow 2 54 - 1) * P :=
        (Nat.mul_lt_mul_right hpos).mpr (by decide)
    _ = 2 * (Nat.pow 2 53 * Nat.pow 2 53) * (2 * limit) := by rw [hlimit, Nat.mul_assoc _ _ P]
    _ = 4 * (Nat.pow 2 53 * Nat.pow 2 53) * limit := by ring

theorem le_of_product_le (hd : 0 < digits)
    (h : 4 * (digits * Nat.pow 10 k * unitsPerOne) ≤ productLimit) : k ≤ 308 := by
  by_contra hlt
  obtain ⟨j, hj⟩ : ∃ j, j = 309 := ⟨_, rfl⟩
  have hfar : productLimit < 4 * (Nat.pow 10 j * unitsPerOne) := by
    rw [hj]
    decide +kernel
  have hpow : Nat.pow 10 j ≤ digits * Nat.pow 10 k :=
    (Nat.pow_le_pow_right (by omega) (by omega)).trans (Nat.le_mul_of_pos_left _ hd)
  have hmul := Nat.mul_le_mul_left 4 (Nat.mul_le_mul_right unitsPerOne hpow)
  exact Nat.lt_irrefl _ (hfar.trans_le (hmul.trans h))

/-- An integer and a power of ten may be rounded before they are multiplied. -/
theorem isSome_scaleBy_powerOfTen (hd : 0 < digits) (hmax : digits ≤ Nat.pow 10 308)
    (h : 4 * (digits * Nat.pow 10 k * unitsPerOne) ≤ productLimit) :
    ((ofNat digits).scaleBy (powerOfTen k)).units?.isSome := by
  obtain ⟨a, ha, hdigits⟩ := exists_units?_ofNat hmax
  obtain ⟨hdigits, -⟩ := hdigits hd
  obtain ⟨b, hb, hpower, -⟩ := exists_units?_powerOfTen (le_of_product_le hd h)
  obtain ⟨negative, hproduct⟩ := exists_scaleBy ha hb
  have hU := unitsPerOne_pos
  have hgap := productLimit_lt_limit
  generalize Nat.pow 2 53 = B at *
  generalize Nat.pow 10 k = P at *
  have hlimit : a * b < limit * unitsPerOne := by
    refine Nat.lt_of_mul_lt_mul_left (a := 4 * (B * B)) ?_
    calc 4 * (B * B) * (a * b) = 4 * (B * a * (B * b)) := by ring
      _ ≤ 4 * ((B + 1) * (digits * unitsPerOne) * ((B + 1) * (P * unitsPerOne))) :=
        Nat.mul_le_mul_left 4 (Nat.mul_le_mul hdigits hpower)
      _ = (B + 1) * (B + 1) * (4 * (digits * P * unitsPerOne)) * unitsPerOne := by ring
      _ ≤ (B + 1) * (B + 1) * productLimit * unitsPerOne :=
        Nat.mul_le_mul_right _ (Nat.mul_le_mul_left _ h)
      _ < 4 * (B * B) * limit * unitsPerOne := (Nat.mul_lt_mul_right hU).mpr hgap
      _ = 4 * (B * B) * (limit * unitsPerOne) := Nat.mul_assoc _ _ _
  obtain ⟨r, s, hu, -⟩ := exists_units?_roundUnits negative hU hlimit
  rw [hproduct, hu]
  rfl

/-- Only the intervals of the two greatest numbers end beyond the limit of products. -/
theorem high_le_productLimit (h : Canonical m p) (hm : p = 2045 → m + 2 < Nat.pow 2 53) :
    (Interval.ofParts m p).high ≤ productLimit := by
  have hhigh : (Interval.ofParts m p).high = (4 * m + 2) * Nat.pow 2 p := by
    rw [Nat.add_mul]
    rfl
  have h₅₃ : Nat.pow 2 53 = 9007199254740992 := rfl
  have h₅₅ : Nat.pow 2 55 - 10 = 36028797018963958 := rfl
  have hlt := h.1
  rw [h₅₃] at hlt hm
  rw [hhigh, productLimit, h₅₅]
  obtain ⟨k, hk⟩ : ∃ k, k = 2044 := ⟨_, rfl⟩
  have hp := h.2.1
  rw [show 2045 = k + 1 by omega] at hm hp ⊢
  have hpow : Nat.pow 2 (k + 1) = 2 * Nat.pow 2 k := pow_succ' 2 k
  rcases Nat.lt_or_eq_of_le hp with hp | rfl
  · have hle : Nat.pow 2 p ≤ Nat.pow 2 k := Nat.pow_le_pow_right (by omega) (by omega)
    calc (4 * m + 2) * Nat.pow 2 p
        ≤ (36028797018963958 * 2) * Nat.pow 2 k := Nat.mul_le_mul (by omega) hle
      _ = 36028797018963958 * Nat.pow 2 (k + 1) := by rw [hpow, Nat.mul_assoc]
  · have hm := hm rfl
    exact Nat.mul_le_mul_right _ (by omega)

theorem product_le_productLimit (h : Canonical m p) (hm : p = 2045 → m + 2 < Nat.pow 2 53)
    (hc : (Interval.ofParts m p).contains digits k) :
    4 * (digits * Nat.pow 10 k * unitsPerOne) ≤ productLimit := by
  obtain ⟨-, hle, -⟩ := Interval.contains_iff.mp hc
  have hzero : (-(k : Int)).toNat = 0 := by omega
  rw [hzero, Int.toNat_natCast, show Nat.pow 10 0 = 1 from rfl, Nat.mul_one] at hle
  exact hle.trans (high_le_productLimit h hm)

end Products

end TallyRules.Binary64
