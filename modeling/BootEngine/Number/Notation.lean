import BootEngine.Number.Shortest

/-!
# Number texts

How a double-precision number is written. The digits are always those of the shortest decimal; the
forms differ in where positional notation ends, in whether a whole number keeps a point, and in how
an exponent is written.

Contents:
* `Form`: the choices of one written form.
* `plainForm`, `exactForm`, `readerForm`, `pointedForm`: the forms in use.
* `Binary64.render`: the text of a number in a form.
-/

namespace BootEngine.Number

/-- The choices of a written form. A number whose first digit stands at a place from `least` to
    `most` is written positionally; without these bounds every number is. -/
structure Form where
  bounds : Option (Int × Int)
  wholeSuffix : String
  plusSign : String

/-- Every number positionally, whole numbers without a point. -/
def plainForm : Form := ⟨none, "", ""⟩

/-- Every number positionally, whole numbers with `.0`. -/
def pointedForm : Form := ⟨none, ".0", ""⟩

/-- From `1e-4` up to below `1e16` positionally, whole numbers with `.0`; else `1.5e21`. -/
def exactForm : Form := ⟨some (-4, 15), ".0", ""⟩

/-- From `1e-5` up to below `1e16` positionally, whole numbers with `.0`; else with a signed
    exponent: `1.5e+21`. -/
def readerForm : Form := ⟨some (-5, 15), ".0", "+"⟩

/-- The decimal digits of a natural number. -/
def digitsOf (n : Nat) : List Char := Nat.toDigits 10 n

/-- Zeros in front up to a width. -/
def padLeft (width : Nat) (cs : List Char) : List Char :=
  List.replicate (width - cs.length) '0' ++ cs

/-- A decimal in positional notation. -/
def positional (form : Form) (d : Decimal) : String :=
  if 0 ≤ d.exponent then
    String.ofList (digitsOf (d.digits * Nat.pow 10 d.exponent.toNat)) ++ form.wholeSuffix
  else
    let places := (-d.exponent).toNat
    let digits := padLeft (places + 1) (digitsOf d.digits)
    let whole := digits.length - places
    String.ofList (digits.take whole) ++ "." ++ String.ofList (digits.drop whole)

/-- A decimal with one digit before the point and an exponent. -/
def scientific (form : Form) (d : Decimal) : String :=
  let digits := digitsOf d.digits
  let first := d.exponent + (digits.length : Int) - 1
  let fraction := digits.drop 1
  String.ofList (digits.take 1) ++
    (if fraction.isEmpty then "" else "." ++ String.ofList fraction) ++
    "e" ++ (if first < 0 then "-" else form.plusSign) ++ String.ofList (digitsOf first.natAbs)

/-- A positive decimal in a form. -/
def Decimal.render (form : Form) (d : Decimal) : String :=
  let first := d.exponent + ((digitsOf d.digits).length : Int) - 1
  match form.bounds with
  | none => positional form d
  | some (least, most) =>
    if least ≤ first && first ≤ most then positional form d else scientific form d

/-- The text of a number in a form: a sign for negative numbers and the negative zero. -/
def Binary64.render (form : Form) : Binary64 → String
  | .nan => "NaN"
  | .infinite negative => if negative then "-inf" else "inf"
  | .finite negative mantissa exponent =>
    (if negative then "-" else "") ++
      if mantissa == 0 then "0" ++ form.wholeSuffix
      else (shortest mantissa exponent).render form

end BootEngine.Number
