import TallyRules.Json.Fault

/-! # Numerals in JSON texts

A numeral is scanned into its digits and its power of ten, and then valued. An
integer of 64 bits is exact. Of any other numeral only as many leading digits
count as make an integer of 64 bits without sign; that integer is rounded, then
multiplied or divided by a power of ten and rounded again.
-/

namespace TallyRules.Json

structure Numeral where
  negative : Bool
  whole : List Char
  /-- The digits after the point, if there is one. -/
  fraction : Option (List Char)
  /-- Whether the power of ten is negative, and its digits. -/
  power : Option (Bool × List Char)

namespace Numeral

def scanDigits (cs : List Char) : List Char × List Char :=
  (cs.takeWhile Char.isDigit, cs.dropWhile Char.isDigit)

def scanDigits1 (cs : List Char) : Except Fault (List Char × List Char) :=
  match scanDigits cs with
  | ([], []) => .error .ended
  | ([], _) => .error .malformed
  | digits => .ok digits

/-- The digits before the point. Only zero itself begins with a zero. -/
def scanWhole (cs : List Char) : Except Fault (List Char × List Char) :=
  match scanDigits1 cs with
  | .ok ('0' :: _ :: _, _) => .error .malformed
  | result => result

/-- The digits after the point, if a point follows. -/
def scanFraction : List Char → Except Fault (Option (List Char) × List Char)
  | '.' :: cs => (scanDigits1 cs).map fun (digits, rest) => (some digits, rest)
  | cs => .ok (none, cs)

/-- The sign of a power of ten: whether it is a minus sign, and what follows it. -/
def scanSign : List Char → Bool × List Char
  | '+' :: cs => (false, cs)
  | '-' :: cs => (true, cs)
  | cs => (false, cs)

/-- The power of ten, if one follows. -/
def scanPower : List Char → Except Fault (Option (Bool × List Char) × List Char)
  | [] => .ok (none, [])
  | c :: cs =>
    if c = 'e' ∨ c = 'E' then
      let (negative, cs) := scanSign cs
      (scanDigits1 cs).map fun (digits, rest) => (some (negative, digits), rest)
    else .ok (none, c :: cs)

/-- A numeral, from its minus sign or first digit, and what follows it. -/
def scan (cs : List Char) : Except Fault (Numeral × List Char) := do
  let (negative, cs) := match cs with
    | '-' :: cs => (true, cs)
    | cs => (false, cs)
  let (whole, cs) ← scanWhole cs
  let (fraction, cs) ← scanFraction cs
  let (power, cs) ← scanPower cs
  return (⟨negative, whole, fraction, power⟩, cs)

def valueOf (digits : List Char) : Nat :=
  digits.foldl (fun n c => 10 * n + (c.toNat - '0'.toNat)) 0

/-- Appends digits to an integer as long as it stays below `2^64`, and gives the digits left. -/
def appendDigits (n : Nat) : List Char → Nat × List Char
  | [] => (n, [])
  | c :: cs =>
    let next := 10 * n + (c.toNat - '0'.toNat)
    if next < UInt64.size then appendDigits next cs else (n, c :: cs)

/-- The magnitude `x · 10^exponent`, in steps of at most `10^308`; none beyond the finite ones. -/
def scaled : (steps : Nat) → Binary64 → Int → Option Binary64
  | 0, x, _ => some x
  | steps + 1, x, exponent =>
    if exponent.natAbs ≤ 308 then
      let power := Binary64.powerOfTen exponent.natAbs
      let y := if 0 ≤ exponent then x.scaleBy power else x.divideBy power
      if y.units?.isSome then some y else none
    else if x.units? = some 0 then some x
    else if 0 ≤ exponent then none
    else scaled steps (x.divideBy (Binary64.powerOfTen 308)) (exponent + 308)

/-- The number that a numeral stands for, if it is in range. -/
def value (numeral : Numeral) : Option Number :=
  let (leading, wholeLeft) := appendDigits 0 numeral.whole
  match numeral.fraction, numeral.power, wholeLeft with
  | none, none, [] =>
    if !numeral.negative then some (.integer leading)
    else if 0 < leading ∧ leading ≤ Int64.minValue.toInt.natAbs then some (.integer (-leading))
    else some (.float (-(Binary64.ofNat leading)))
  | fraction, power, wholeLeft =>
    let digits := fraction.getD []
    let (significand, digitsLeft) := appendDigits leading digits
    let shift : Int := wholeLeft.length - (digits.length - digitsLeft.length : Nat)
    let exponent : Int := match power with
      | none => 0
      | some (negative, digits) => if negative then -(valueOf digits : Int) else valueOf digits
    (scaled 4 (Binary64.ofNat significand) (shift + exponent)).map fun x =>
      .float (if numeral.negative then -x else x)

end Numeral

end TallyRules.Json
