import BootEngine.Number.Binary64

/-!
# Shortest decimal

The decimal with the fewest digits that reads back as a given number, and among those the nearest.
For each digit count only two decimals can lie in the interval of reals that round to the number:
the neighbours of the number itself on the grid of that many digits.

Contents:
* `Decimal`: digits times a power of ten.
* `shortest`: the shortest decimal of a positive number.
-/

namespace BootEngine.Number

/-- `digits · 10 ^ exponent`. -/
structure Decimal where
  digits : Nat
  exponent : Int
  deriving DecidableEq, Repr, Inhabited

namespace Decimal

/-- The decimal without zeros at its end. -/
def trim : Nat → Decimal → Decimal
  | 0, d => d
  | fuel + 1, d =>
    if d.digits != 0 && d.digits % 10 == 0 then trim fuel ⟨d.digits / 10, d.exponent + 1⟩ else d

end Decimal

/-- The reals that round to `mantissa · 2 ^ exponent`, all multiplied by one common natural: the
    value itself, the interval's ends, and whether the ends belong to it. -/
structure RoundingInterval where
  low : Nat
  value : Nat
  high : Nat
  closed : Bool

/-- The rounding interval of a number in units of a quarter of its last place. The gap below a power
    of two is half as wide, except at the least exponent; the ends belong to an even mantissa. -/
def roundingInterval (mantissa : Nat) (exponent : Int) : RoundingInterval :=
  let value := 4 * mantissa
  let below := if mantissa == wordCount 52 && exponent > -1074 then 1 else 2
  ⟨value - below, value, value + 2, mantissa % 2 == 0⟩

/-- The common factors that make `n · 2 ^ binary` and `m · 10 ^ decimal` comparable as naturals. -/
def commonFactors (binary decimal : Int) : Nat × Nat :=
  (Nat.pow 2 binary.toNat * Nat.pow 10 (-decimal).toNat,
    Nat.pow 10 decimal.toNat * Nat.pow 2 (-binary).toNat)

/-- The neighbour of the value on the grid of multiples of `10 ^ exponent` that lies in the rounding
    interval, the nearer one if both do, and on a tie the even one. -/
def onGrid? (interval : RoundingInterval) (binary exponent : Int) : Option Nat :=
  let (unit, step) := commonFactors binary exponent
  let value := interval.value * unit
  let below := value / step
  let fits (d : Nat) : Bool :=
    if interval.closed then interval.low * unit ≤ d * step && d * step ≤ interval.high * unit
    else interval.low * unit < d * step && d * step < interval.high * unit
  let above := below + 1
  match fits below && below != 0, fits above with
  | false, false => none
  | true, false => some below
  | false, true => some above
  | true, true =>
    let down := value - below * step
    let up := above * step - value
    if down < up then some below
    else if up < down then some above
    else some (if below % 2 == 0 then below else above)

/-- The exponent of the first digit of `num / den`, found by walking up or down from a start. -/
def firstDigitExponent (num den : Nat) : Nat → Int → Int
  | 0, e => e
  | fuel + 1, e =>
    if num * Nat.pow 10 (-e).toNat < den * Nat.pow 10 e.toNat then
      firstDigitExponent num den fuel (e - 1)
    else if den * Nat.pow 10 (e + 1).toNat ≤ num * Nat.pow 10 (-(e + 1)).toNat then
      firstDigitExponent num den fuel (e + 1)
    else e

/-- Tries the grids of `count`, `count + 1`, … digits; seventeen digits always suffice. -/
def searchGrids (interval : RoundingInterval) (binary first : Int) : Nat → Int → Option Decimal
  | 0, _ => none
  | fuel + 1, count =>
    let exponent := first - count + 1
    match onGrid? interval binary exponent with
    | some digits => some ⟨digits, exponent⟩
    | none => searchGrids interval binary first fuel (count + 1)

/-- The shortest decimal that reads back as `mantissa · 2 ^ exponent`, for a positive mantissa. -/
def shortest (mantissa : Nat) (exponent : Int) : Decimal :=
  let interval := roundingInterval mantissa exponent
  let binary := exponent - 2
  let num := mantissa * Nat.pow 2 exponent.toNat
  let den := Nat.pow 2 (-exponent).toNat
  let guess := ((Nat.log2 mantissa : Int) + exponent) * 30103 / 100000
  let first := firstDigitExponent num den 8 guess
  ((searchGrids interval binary first 18 1).getD ⟨mantissa, 0⟩).trim 400

end BootEngine.Number
