import TallyRules.Number.Shortest

/-! # Texts of numbers

A number is written with the digits of its shortest decimal, positionally or
with a power of ten. Three styles are in use: numbers in scripts, numbers in
messages, and numbers in JSON.
-/

namespace TallyRules

/-- How the digits of a number are laid out. -/
structure NumberStyle where
  tie : Decimal.Tie
  /-- The least and the greatest power of ten of a first digit that is written positionally;
  without bounds every number is. -/
  positional : Option (Int × Int)
  /-- Whether a positional number always has a fraction. -/
  keepsFraction : Bool
  /-- Whether a power of ten that is not negative has a sign. -/
  signsPower : Bool

namespace NumberStyle

/-- Numbers in scripts: positional from `10^-4` and below `10^16`. -/
def script : NumberStyle := ⟨.away, some (-4, 15), true, false⟩

/-- Numbers in messages: always positional, and whole numbers without a fraction. -/
def message : NumberStyle := ⟨.away, none, false, false⟩

/-- Numbers in JSON: positional from `10^-5` and below `10^16`. -/
def json : NumberStyle := ⟨.toEven, some (-5, 15), true, true⟩

end NumberStyle

namespace Decimal

def digitChars (d : Decimal) : List Char :=
  Nat.toDigits 10 d.digits

/-- The power of ten of the first digit. -/
def power (d : Decimal) : Int :=
  if d.digits = 0 then 0 else d.digitChars.length - 1 + d.exponent

def positionalChars (style : NumberStyle) (d : Decimal) : List Char :=
  let digits := d.digitChars
  if 0 ≤ d.exponent then
    digits ++ List.replicate d.exponent.toNat '0' ++ (if style.keepsFraction then ['.', '0'] else [])
  else
    let places := (-d.exponent).toNat
    let padded := List.replicate (places + 1 - digits.length) '0' ++ digits
    padded.take (padded.length - places) ++ '.' :: padded.drop (padded.length - places)

/-- The decimal with one digit before the point and a power of ten. -/
def scientificChars (style : NumberStyle) (d : Decimal) : List Char :=
  let mantissa := match d.digitChars with
    | [] => []
    | [digit] => [digit]
    | digit :: fraction => digit :: '.' :: fraction
  let sign := if d.power < 0 then ['-'] else if style.signsPower then ['+'] else []
  mantissa ++ 'e' :: sign ++ Nat.toDigits 10 d.power.natAbs

def chars (style : NumberStyle) (d : Decimal) : List Char :=
  match style.positional with
  | none => d.positionalChars style
  | some (least, greatest) =>
    if least ≤ d.power ∧ d.power ≤ greatest then d.positionalChars style
    else d.scientificChars style

end Decimal

def Binary64.text (style : NumberStyle) : Binary64 → String
  | .finite negative m p _ =>
    String.ofList ((if negative then ['-'] else []) ++ (Decimal.shortest style.tie m p).chars style)
  | .infinite negative => if negative then "-inf" else "inf"
  | .nan => "NaN"

end TallyRules
