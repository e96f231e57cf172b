import TallyRules.Number.Binary64

/-! # Shortest decimals

The shortest decimal of a number is one with the fewest digits among those
that round to it, and of these the nearest to it. The arithmetic is exact: a
decimal with a given last place rounds to the number only if one of the two
neighbours of the number at that place does.
-/

namespace TallyRules

/-- The decimal `digits · 10^exponent`. -/
structure Decimal where
  digits : Nat
  exponent : Int
  deriving DecidableEq, Repr

namespace Decimal

/-- Which of two equally near decimals is taken. -/
inductive Tie
  /-- The one of greater magnitude. -/
  | away
  /-- The one with an even last digit. -/
  | toEven
  deriving DecidableEq

def stripped (fuel : Nat) (d : Decimal) : Decimal :=
  match fuel with
  | 0 => d
  | fuel + 1 =>
    if d.digits % 10 = 0 then stripped fuel ⟨d.digits / 10, d.exponent + 1⟩ else d

/-- The reals that round to a positive number, between `low` and `high` and with the number itself
at `middle`, counted in quarters of a unit. -/
structure Interval where
  low : Nat
  middle : Nat
  high : Nat
  /-- Whether the ends belong to the interval. -/
  closed : Bool

/-- The interval of a positive number. Below a power of two the next number is half as far. -/
def Interval.ofParts (significand scale : Nat) : Interval where
  low := 4 * significand * Nat.pow 2 scale -
    if significand = Nat.pow 2 52 ∧ scale ≠ 0 then Nat.pow 2 scale else 2 * Nat.pow 2 scale
  middle := 4 * significand * Nat.pow 2 scale
  high := 4 * significand * Nat.pow 2 scale + 2 * Nat.pow 2 scale
  closed := significand % 2 = 0

def quartersPerOne : Nat := 4 * Binary64.unitsPerOne

/-- The exponent of the greatest power of ten that is not above `num / den`. -/
def magnitude (num den : Nat) : Int :=
  if den ≤ num then Binary64.decimalLength (num / den) - 1
  else -(Binary64.decimalLength ((den + num - 1) / num - 1) : Int)

def Interval.contains (i : Interval) (digits : Nat) (exponent : Int) : Bool :=
  let point := digits * Nat.pow 10 exponent.toNat * quartersPerOne
  let unit := Nat.pow 10 (-exponent).toNat
  if i.closed then i.low * unit ≤ point && point ≤ i.high * unit
  else i.low * unit < point && point < i.high * unit

/-- The decimal with its last digit at `10^exponent` that lies in the interval nearest to its
middle, if one of the two neighbours of the middle does. -/
def Interval.nearest? (tie : Tie) (i : Interval) (exponent : Int) : Option Decimal :=
  let num := i.middle * Nat.pow 10 (-exponent).toNat
  let den := quartersPerOne * Nat.pow 10 exponent.toNat
  let below := num / den
  let twice := 2 * (num % den)
  match i.contains below exponent, i.contains (below + 1) exponent with
  | false, false => none
  | true, false => some ⟨below, exponent⟩
  | false, true => some ⟨below + 1, exponent⟩
  | true, true =>
    if twice < den then some ⟨below, exponent⟩
    else if den < twice then some ⟨below + 1, exponent⟩
    else match tie with
      | .away => some ⟨below + 1, exponent⟩
      | .toEven => some ⟨below + below % 2, exponent⟩

/-- The first decimal in the interval when the last place moves down from `exponent`. -/
def Interval.shortest (tie : Tie) (i : Interval) : (places : Nat) → (exponent : Int) → Decimal
  | 0, exponent => ⟨0, exponent⟩
  | places + 1, exponent =>
    (i.nearest? tie exponent).getD (shortest tie i places (exponent - 1))

/-- The shortest decimal of the number `significand · 2^scale` units. Seventeen digits suffice. -/
def shortest (tie : Tie) (significand scale : Nat) : Decimal :=
  if significand = 0 then ⟨0, 0⟩
  else
    let i := Interval.ofParts significand scale
    (i.shortest tie 17 (magnitude i.middle quartersPerOne)).stripped 17

end Decimal

end TallyRules
