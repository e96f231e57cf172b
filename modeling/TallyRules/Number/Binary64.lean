/-! # Binary floating-point numbers

A number is a signed significand below `2^53` times a power of two, an
infinity, or not a number. Magnitudes are counted in units of `2^-1074`, the
least positive number, so that every finite magnitude is a natural number of
units. Rounding takes an exact ratio to the nearest number, and a tie to the
even significand.
-/

namespace TallyRules

/-- A significand and a power of two that are the one written form of their product: only the
smallest numbers, with the power zero, have a significand below `2^52`. -/
def Binary64.Canonical (significand scale : Nat) : Prop :=
  significand < Nat.pow 2 53 ∧ scale ≤ 2045 ∧ (Nat.pow 2 52 ≤ significand ∨ scale = 0)

instance (significand scale : Nat) : Decidable (Binary64.Canonical significand scale) :=
  inferInstanceAs (Decidable (_ ∧ _ ∧ (_ ∨ _)))

/-- A binary floating-point number of 64 bits. -/
inductive Binary64
  /-- The number `± significand · 2^scale`, in units of `2^-1074`. -/
  | finite (negative : Bool) (significand scale : Nat)
      (canonical : Binary64.Canonical significand scale)
  | infinite (negative : Bool)
  | nan
  deriving DecidableEq

namespace Binary64

def unitsPerOne : Nat := Nat.pow 2 1074

def zero (negative : Bool) : Binary64 :=
  finite negative 0 0 (by decide)

instance : Inhabited Binary64 := ⟨zero false⟩

/-- The quotient `num / den` rounded to the nearest natural number, a tie to the even one. -/
def roundDiv (num den : Nat) : Nat :=
  let quotient := num / den
  let twice := 2 * (num % den)
  if twice < den then quotient
  else if den < twice then quotient + 1
  else quotient + quotient % 2

/-- The finite number with the given significand and scale, or infinity beyond the greatest
finite number. A significand of `2^53` is that of the next power of two. -/
def ofParts (negative : Bool) (significand scale : Nat) : Binary64 :=
  if h : Canonical significand scale then finite negative significand scale h
  else if h : Canonical (significand / 2) (scale + 1) then
    finite negative (significand / 2) (scale + 1) h
  else infinite negative

/-- The number nearest to `± num / den` units. -/
def roundUnits (negative : Bool) (num den : Nat) : Binary64 :=
  let scale := (num / den).log2 - 52
  ofParts negative (roundDiv num (den * Nat.pow 2 scale)) scale

def round (negative : Bool) (num den : Nat) : Binary64 :=
  roundUnits negative (num * unitsPerOne) den

def ofNat (n : Nat) : Binary64 :=
  round false n 1

def ofInt (n : Int) : Binary64 :=
  round (n < 0) n.natAbs 1

def neg : Binary64 → Binary64
  | finite negative m p h => finite (!negative) m p h
  | infinite negative => infinite (!negative)
  | nan => nan

instance : Neg Binary64 := ⟨neg⟩

def decimalLength (n : Nat) : Nat :=
  if n < 10 then 1 else decimalLength (n / 10) + 1

/-- The number nearest to `± digits · 10^exponent`. -/
def ofDecimal (negative : Bool) (digits : Nat) (exponent : Int) : Binary64 :=
  if digits = 0 then zero negative
  else if 310 < decimalLength digits + exponent then infinite negative
  else if decimalLength digits + exponent < -330 then zero negative
  else round negative (digits * Nat.pow 10 exponent.toNat) (Nat.pow 10 (-exponent).toNat)

/-- The magnitude of a finite number in units. -/
def units? : Binary64 → Option Nat
  | finite _ m p _ => some (m * Nat.pow 2 p)
  | _ => none

/-- The integer that a number is equal to, if any. -/
def toInt? : Binary64 → Option Int
  | finite negative m p _ =>
    if m * Nat.pow 2 p % unitsPerOne = 0 then
      let n : Int := ↑(m * Nat.pow 2 p / unitsPerOne)
      some (if negative then -n else n)
    else none
  | _ => none

/-- The product, rounded to the nearest number, of a finite number and a non-negative one. -/
def scaleBy : Binary64 → Binary64 → Binary64
  | finite negative m p _, finite _ n q _ =>
    roundUnits negative (m * Nat.pow 2 p * (n * Nat.pow 2 q)) unitsPerOne
  | _, infinite negative => infinite negative
  | x, _ => x

/-- The quotient, rounded to the nearest number, of a finite number by a positive one. -/
def divideBy : Binary64 → Binary64 → Binary64
  | finite negative m p _, finite _ n q _ =>
    roundUnits negative (m * Nat.pow 2 p * unitsPerOne) (n * Nat.pow 2 q)
  | x, _ => x

def powerOfTen (n : Nat) : Binary64 :=
  ofDecimal false 1 n

end Binary64

end TallyRules
