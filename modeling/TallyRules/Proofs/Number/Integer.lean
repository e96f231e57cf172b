import Mathlib.Tactic.FieldSimp
import TallyRules.Proofs.Number.Rounding
import TallyRules.Value

/-! # Numbers that are integers

A number that is equal to an integer is the one that the integer is rounded to, up to the sign of
zero. So the value of a number in a sheet is also the value of the number that it is written as. It
is an integer if the exact value of the number is one, of a magnitude below `2^63`.
-/

namespace TallyRules

namespace Binary64

open Decimal (Interval)

theorem holds_self (m p : Nat) : (Interval.ofParts m p).Holds (m * Nat.pow 2 p) 1 := by
  have hpos : 0 < Nat.pow 2 p := Nat.two_pow_pos p
  have hmul : 4 * m * Nat.pow 2 p = 4 * (m * Nat.pow 2 p) := Nat.mul_assoc 4 m _
  refine ⟨?_, ?_, fun hopen => ?_⟩
  · simp only [Interval.ofParts, hmul, Nat.mul_one]
    exact Nat.sub_le _ _
  · simp only [Interval.ofParts, hmul, Nat.mul_one]
    exact Nat.le_add_right _ _
  · -- the interval of an odd significand is open, and the significand is not zero
    have hm : 0 < m := Nat.pos_of_ne_zero fun h0 => by simp [Interval.ofParts, h0] at hopen
    have hself : 0 < m * Nat.pow 2 p := Nat.mul_pos hm hpos
    simp only [Interval.ofParts, hmul, Nat.mul_one]
    split <;> omega

theorem roundUnits_self (negative : Bool) {m p : Nat} (h : Canonical m p) :
    roundUnits negative (m * Nat.pow 2 p) 1 = finite negative m p h :=
  roundUnits_of_holds negative h Nat.one_pos (holds_self m p)

theorem toInt?_ofInt {x : Binary64} {n : Int} (h : x.toInt? = some n) :
    (ofInt n).toInt? = some n := by
  cases x with
  | infinite negative => cases h
  | nan => cases h
  | finite negative m p hc =>
    simp only [toInt?] at h
    split at h
    · rename_i hmod
      have hunits : m * Nat.pow 2 p / unitsPerOne * unitsPerOne = m * Nat.pow 2 p :=
        Nat.div_mul_cancel (Nat.dvd_of_mod_eq_zero hmod)
      generalize hq : m * Nat.pow 2 p / unitsPerOne = q at h hunits
      have hn : n.natAbs = q ∧ (if n < 0 then -(q : Int) else q) = n := by
        cases negative <;> cases h <;> simp
      rw [ofInt, round, hn.1, hunits, roundUnits_self _ hc, toInt?, if_pos hmod, hq]
      simpa using hn.2
    · cases h

/-- The exact value of a finite number. -/
def toRat? : Binary64 → Option ℚ
  | finite negative m p _ =>
    some ((if negative then -1 else 1) * (↑(m * Nat.pow 2 p) / ↑unitsPerOne))
  | _ => none

theorem div_eq_intCast_iff {a u : Nat} (hu : 0 < u) {n : Int} :
    (a : ℚ) / u = n ↔ a % u = 0 ∧ ((a / u : Nat) : Int) = n := by
  have hne : (u : ℚ) ≠ 0 := Nat.cast_ne_zero.mpr hu.ne'
  rw [div_eq_iff hne]
  constructor
  · intro h
    have hz : (a : Int) = n * u := by exact_mod_cast h
    have hdvd : u ∣ a := Int.natCast_dvd_natCast.mp ⟨n, by rw [hz, mul_comm]⟩
    refine ⟨Nat.mod_eq_zero_of_dvd hdvd, ?_⟩
    rw [Int.natCast_div, hz]
    exact Int.mul_ediv_cancel n (by omega)
  · rintro ⟨hmod, rfl⟩
    have ha : a / u * u = a := Nat.div_mul_cancel (Nat.dvd_of_mod_eq_zero hmod)
    exact_mod_cast ha.symm

/-- A number is equal to an integer if its exact value is that integer. -/
theorem toInt?_eq_some_iff {x : Binary64} {n : Int} :
    x.toInt? = some n ↔ x.toRat? = some (n : ℚ) := by
  cases x with
  | infinite negative => simp [toInt?, toRat?]
  | nan => simp [toInt?, toRat?]
  | finite negative m p hc =>
    have hu := unitsPerOne_pos
    simp only [toInt?, toRat?]
    -- the magnitude and the unit get names, or `simp` would compute them
    generalize m * Nat.pow 2 p = a
    generalize unitsPerOne = u at *
    have hdiv : ∀ k : Int, (↑a / ↑u : ℚ) = k ↔ a % u = 0 ∧ ((a / u : Nat) : Int) = k :=
      fun k => div_eq_intCast_iff hu
    generalize a / u = q at *
    cases negative with
    | false => simpa using (hdiv n).symm
    | true =>
      have hneg : (-1 * (↑a / ↑u) : ℚ) = n ↔ (↑a / ↑u : ℚ) = (-n : Int) := by
        rw [neg_one_mul, neg_eq_iff_eq_neg, Int.cast_neg]
      simp only [if_true, Option.some.injEq, hneg, hdiv]
      split <;> simp_all [neg_eq_iff_eq_neg]

end Binary64

namespace Value

theorem ofNumber_of_toInt? {x : Binary64} {n : Int} (h : x.toInt? = some n)
    (hn : n.natAbs ≤ Int64.maxValue.toInt.natAbs) : ofNumber x = int (Int64.ofInt n) := by
  rw [ofNumber, h]
  exact if_pos hn

theorem ofNumber_cases (x : Binary64) :
    (∃ n, ofNumber x = int n ∧ ofNumber (.ofInt n.toInt) = int n) ∨ ofNumber x = float x := by
  cases h : x.toInt? with
  | none => exact .inr (by rw [ofNumber, h])
  | some n =>
    by_cases hn : n.natAbs ≤ Int64.maxValue.toInt.natAbs
    · have hmax : Int64.maxValue.toInt.natAbs = 2 ^ 63 - 1 := rfl
      have hself : (Int64.ofInt n).toInt = n :=
        Int64.toInt_ofInt_of_le (by omega) (by omega)
      refine .inl ⟨Int64.ofInt n, ofNumber_of_toInt? h hn, ?_⟩
      rw [hself]
      exact ofNumber_of_toInt? (Binary64.toInt?_ofInt h) hn
    · refine .inr ?_
      rw [ofNumber, h]
      exact if_neg hn

theorem ofNumber_eq_int_iff {x : Binary64} {n : Int64} :
    ofNumber x = int n ↔ x.toRat? = some (n.toInt : ℚ) ∧ -2 ^ 63 < n.toInt := by
  have hmax : Int64.maxValue.toInt.natAbs = 2 ^ 63 - 1 := rfl
  have hlt := Int64.toInt_lt n
  rw [← Binary64.toInt?_eq_some_iff]
  constructor
  · intro h
    rcases hx : x.toInt? with _ | k
    · rw [ofNumber, hx] at h
      cases h
    · by_cases hk : k.natAbs ≤ Int64.maxValue.toInt.natAbs
      · have hself : (Int64.ofInt k).toInt = k := Int64.toInt_ofInt_of_le (by omega) (by omega)
        rw [ofNumber_of_toInt? hx hk] at h
        cases h
        rw [hself]
        exact ⟨rfl, by omega⟩
      · rw [ofNumber, hx] at h
        simp only [if_neg hk] at h
        cases h
  · rintro ⟨hx, hn⟩
    rw [ofNumber_of_toInt? hx (by omega), Int64.ofInt_toInt]

/-- A number is narrowed to the integer that it is equal to if the magnitude of that is below
`2^63`, and stays as it is otherwise. -/
theorem ofNumber_exact (x : Binary64) :
    (∀ n, ofNumber x = int n ↔ x.toRat? = some (n.toInt : ℚ) ∧ -2 ^ 63 < n.toInt) ∧
      (ofNumber x = float x ↔
        ¬ ∃ k : ℤ, x.toRat? = some (k : ℚ) ∧ -2 ^ 63 < k ∧ k ≤ 2 ^ 63 - 1) := by
  refine ⟨fun n => ofNumber_eq_int_iff, ?_⟩
  constructor
  · rintro hf ⟨k, hx, hlo, hhi⟩
    have hself : (Int64.ofInt k).toInt = k := Int64.toInt_ofInt_of_le (by omega) (by omega)
    have hint : ofNumber x = int (Int64.ofInt k) :=
      ofNumber_eq_int_iff.mpr (by rw [hself]; exact ⟨hx, hlo⟩)
    cases hf.symm.trans hint
  · intro hno
    rcases ofNumber_cases x with ⟨n, hn, -⟩ | hf
    · obtain ⟨hx, hlo⟩ := ofNumber_eq_int_iff.mp hn
      have hlt := Int64.toInt_lt n
      exact absurd ⟨n.toInt, hx, hlo, by omega⟩ hno
    · exact hf

/-- The least integer of 64 bits is the exact value of a number, which stays as it is. -/
theorem ofNumber_least :
    let x : Binary64 := .finite true (Nat.pow 2 52) 1085 (by decide)
    x.toRat? = some (Int64.minValue.toInt : ℚ) ∧ ofNumber x = float x := by
  intro x
  have hx : x.toInt? = some Int64.minValue.toInt := by decide +kernel
  refine ⟨Binary64.toInt?_eq_some_iff.mp hx, ?_⟩
  rw [ofNumber, hx]
  rfl

end Value

end TallyRules
