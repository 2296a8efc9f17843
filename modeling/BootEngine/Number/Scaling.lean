import BootEngine.Number.Machine
import BootEngine.Number.Binary64

/-!
# Scaled reading of decimals

A double read from decimal digits in steps: as many digits as a word of 64 bits holds, then a power
of ten. Each step rounds on its own, so the result may be a neighbour of the number that is nearest
to the decimal.

Contents:
* `Binary64.times`, `Binary64.dividedBy`: the rounded product and quotient of magnitudes.
* `Binary64.scale?`: a number times a power of ten, in steps.
* `wordDigits`, `Binary64.ofDigits?`: the number that written digits stand for.
-/

namespace BootEngine.Number

namespace Binary64

/-- The nearest number to `num · 2 ^ exponent / den`. -/
def ofScaled (num den : Nat) (exponent : Int) : Binary64 :=
  if num == 0 then zero false
  else
    let parts := scaled num den (-exponent)
    ofQuotient false parts.1 parts.2

/-- The product of two magnitudes, rounded once. -/
def times : Binary64 → Binary64 → Binary64
  | .finite _ m e, .finite _ n f => ofScaled (m * n) 1 (e + f)
  | x, _ => x

/-- The quotient of two magnitudes, rounded once. -/
def dividedBy : Binary64 → Binary64 → Binary64
  | .finite _ m e, .finite _ n f => ofScaled m n (e - f)
  | x, _ => x

/-- The nearest number to a power of ten. -/
def powerOfTen (exponent : Nat) : Binary64 := ofDecimal false 1 exponent

/-- The greatest power of ten below all that the format cannot hold. -/
def mostPower : Nat := 308

/-- A magnitude times a power of ten, if it stays finite. A power below all that the format holds
    takes several steps; after three of them no magnitude is left. -/
def scale? : Nat → Int → Binary64 → Option Binary64
  | steps, exponent, x =>
    if x == zero false then some x
    else if exponent.natAbs ≤ mostPower then
      let y := if 0 ≤ exponent then x.times (powerOfTen exponent.toNat)
        else x.dividedBy (powerOfTen exponent.natAbs)
      if y.isFinite then some y else none
    else if 0 ≤ exponent then none
    else
      match steps with
      | 0 => some (zero false)
      | steps + 1 => scale? steps (exponent + mostPower) (x.dividedBy (powerOfTen mostPower))

/-- The number with a sign in front. -/
def signedBy (negative : Bool) : Binary64 → Binary64
  | .finite _ m e => .finite negative m e
  | .infinite _ => .infinite negative
  | .nan => .nan

end Binary64

/-- Appends digits to a number as long as a word of 64 bits holds it, and counts them. -/
def wordDigits : Nat → List Char → Nat × Nat
  | n, [] => (n, 0)
  | n, c :: rest =>
    let next := n * 10 + (c.toNat - 48)
    if next < wordCount 64 then
      let (n, count) := wordDigits next rest
      (n, count + 1)
    else (n, 0)

/-- The number that digits before and after the point and an exponent stand for, if it is finite.
    Digits that the word has no room for count as zeros. -/
def Binary64.ofDigits? (negative : Bool) (whole fraction : List Char) (exponent : Int) :
    Option Binary64 :=
  let (n, wholeCount) := wordDigits 0 whole
  let (n, fractionCount) := wordDigits n fraction
  let exponent := exponent + ((whole.length - wholeCount : Nat) : Int) - (fractionCount : Int)
  ((ofScaled n 1 0).scale? 3 exponent).map (signedBy negative)

end BootEngine.Number
