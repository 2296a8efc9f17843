/-!
# Digits

Numbers in the usual notation by digits, in any base up to sixteen.

Contents:
* `digitValue?`, `numeral?`: the value of a digit, and of digits in a row.
* `decimal`: the value of decimal digits in a row.
* `signed`: the sign in front of a number.
* `codePoint?`: the character with a number.
-/

namespace BootEngine.Text

/-- The value of a digit in a base up to sixteen. -/
def digitValue? (base : Nat) (c : Char) : Option Nat :=
  let value? :=
    if '0' ≤ c && c ≤ '9' then some (c.toNat - 48)
    else if 'a' ≤ c && c ≤ 'f' then some (c.toNat - 87)
    else if 'A' ≤ c && c ≤ 'F' then some (c.toNat - 55)
    else none
  value?.filter (· < base)

/-- The number that digits of a base spell. -/
def numeral? (base : Nat) : List Char → Option Nat
  | [] => none
  | cs => cs.foldl (fun n? c => do return (← n?) * base + (← digitValue? base c)) (some 0)

/-- The number that decimal digits spell; zero if there are none. -/
def decimal (digits : List Char) : Nat := digits.foldl (fun n c => n * 10 + (c.toNat - 48)) 0

/-- The sign in front of a number, and what follows it. -/
def signed : List Char → Bool × List Char
  | '-' :: rest => (true, rest)
  | '+' :: rest => (false, rest)
  | cs => (false, cs)

/-- The character of a code point that is one. -/
def codePoint? (n : Nat) : Option Char := if n.isValidChar then some (Char.ofNat n) else none

end BootEngine.Text
