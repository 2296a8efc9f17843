import BootEngine.Number.Machine

/-!
# Double-precision numbers

The numbers of the 64-bit binary format, as a sign with an integer times a power of two, without a
bit pattern. Reading a decimal rounds the exact quotient once, to the nearest number and on a tie to
the even one.

Contents:
* `Binary64`: zero, finite numbers, infinities and not-a-number.
* `roundHalfEven`: the quotient of two naturals, rounded.
* `Binary64.ofDecimal`: the nearest number to `digits · 10 ^ exponent`.
* `Binary64.toNatRounded`: the nearest natural number below a bound, halves away from zero.
-/

namespace BootEngine.Number

/-- A number of the format. A finite one is `mantissa · 2 ^ exponent` with `mantissa < 2 ^ 53`,
    `-1074 ≤ exponent ≤ 971`, and `2 ^ 52 ≤ mantissa` unless the exponent is the least one. -/
inductive Binary64 where
  | finite (negative : Bool) (mantissa : Nat) (exponent : Int)
  | infinite (negative : Bool)
  | nan
  deriving DecidableEq, Repr, Inhabited

/-- `num / den` rounded to the nearest natural, a half to the even neighbour. -/
def roundHalfEven (num den : Nat) : Nat :=
  let quotient := num / den
  let rest := 2 * (num % den)
  if rest < den then quotient
  else if rest > den then quotient + 1
  else if quotient % 2 == 0 then quotient else quotient + 1

namespace Binary64

/-- The number with value zero. -/
def zero (negative : Bool) : Binary64 := .finite negative 0 (-1074)

/-- `num · 2 ^ (-shift) / den` as a pair of naturals: the power of two goes to the side that keeps
    both natural. -/
def scaled (num den : Nat) (shift : Int) : Nat × Nat :=
  if 0 ≤ shift then (num, den * Nat.pow 2 shift.toNat)
  else (num * Nat.pow 2 (-shift).toNat, den)

/-- The nearest number to `num / den` in magnitude, for `0 < num` and `0 < den`. The exponent is the
    one that leaves 53 binary digits before the point, or the least one. -/
def ofQuotient (negative : Bool) (num den : Nat) : Binary64 :=
  let guess : Int := (Nat.log2 num : Int) - (Nat.log2 den : Int) - 52
  let low := scaled num den guess
  let exponent := max (if low.1 / low.2 < wordCount 52 then guess - 1 else guess) (-1074)
  let parts := scaled num den exponent
  let mantissa := roundHalfEven parts.1 parts.2
  let (mantissa, exponent) :=
    if mantissa == wordCount 53 then (wordCount 52, exponent + 1) else (mantissa, exponent)
  if exponent > 971 then .infinite negative else .finite negative mantissa exponent

/-- The nearest number to `digits · 10 ^ exponent`. Magnitudes beyond every number of the format are
    decided by their decimal length, so that no huge power is formed. -/
def ofDecimal (negative : Bool) (digits : Nat) (exponent : Int) : Binary64 :=
  if digits == 0 then zero negative
  else
    let size : Int := (Nat.toDigits 10 digits).length + exponent
    if size > 310 then .infinite negative
    else if size < -330 then zero negative
    else if 0 ≤ exponent then ofQuotient negative (digits * Nat.pow 10 exponent.toNat) 1
    else ofQuotient negative digits (Nat.pow 10 (-exponent).toNat)

/-- The nearest number to an integer. -/
def ofInt (i : Int) : Binary64 := ofDecimal (i < 0) i.natAbs 0

/-- The number is neither infinite nor not-a-number. -/
def isFinite : Binary64 → Bool
  | .finite .. => true
  | _ => false

/-- The nearest natural up to `bound`, a half rounding up; what lies below zero becomes zero, what
    lies above the bound the bound, and not-a-number zero. -/
def toNatRounded (bound : Nat) : Binary64 → Nat
  | .nan => 0
  | .infinite negative => if negative then 0 else bound
  | .finite true _ _ => 0
  | .finite false mantissa exponent =>
    let parts := scaled mantissa 1 (-exponent)
    min bound ((2 * parts.1 + parts.2) / (2 * parts.2))

end Binary64

end BootEngine.Number
