import BootEngine.Number.Machine
import BootEngine.Text.Digits
import BootEngine.Value

/-!
# Numbers and truth values in TOML documents

A number or a truth value is one word. Integers have 64 bits with a sign and may be written in other
bases; underscores may stand between digits. A double may be infinite by name, and a decimal may be
too small for every double but not too great.

Contents:
* `withoutUnderscores?`: the digits of a word.
* `based?`, `decimal?`, `namedDouble?`: the forms of numbers.
* `word?`: a number or a truth value.
-/

namespace BootEngine.Toml

open Number (Binary64)
open Text (digitValue? numeral? signed)

/-- Takes the underscores out, each of which has to stand between two digits. -/
def withoutUnderscores? (isDigit : Char → Bool) : List Char → Option (List Char)
  | [] => some []
  | [c] => if c == '_' then none else some [c]
  | c :: '_' :: d :: rest =>
    if isDigit c && isDigit d then do return c :: (← withoutUnderscores? isDigit (d :: rest))
    else none
  | c :: rest => if c == '_' then none else do return c :: (← withoutUnderscores? isDigit rest)

/-- A whole number without needless zeros in front. -/
def isWhole (digits : List Char) : Bool :=
  !digits.isEmpty && digits.all Char.isDigit && (digits.length == 1 || digits.head? != some '0')

/-- An integer of 64 bits with a sign. -/
def integer? (negative : Bool) (n : Nat) : Option Value :=
  let i : Int := if negative then -(n : Int) else n
  if Number.fitsSigned i then some (.int i) else none

/-- A number in another base. -/
def based? (base : Nat) (cs : List Char) : Option Value := do
  integer? false (← numeral? base (← withoutUnderscores? (fun c => (digitValue? 16 c).isSome) cs))

/-- A double, if it is not beyond all positive ones. -/
def double? (x : Binary64) : Option Value := if x == .infinite false then none else some (.float x)

/-- A decimal number. -/
def decimal? (cs : List Char) : Option Value := do
  let (negative, body) := signed (← withoutUnderscores? Char.isDigit cs)
  let whole := body.takeWhile Char.isDigit
  let rest := body.drop whole.length
  if !isWhole whole then none
  else if rest.isEmpty then integer? negative (← numeral? 10 whole)
  else
    let (fraction, rest) := match rest with
      | '.' :: more => (more.takeWhile Char.isDigit, more.dropWhile Char.isDigit)
      | other => (['0'], other)
    if fraction.isEmpty then none
    else
      let exponent ← match rest with
        | [] => some 0
        | c :: more =>
          if c == 'e' || c == 'E' then
            let (down, digits) := signed more
            if digits.isEmpty || !digits.all Char.isDigit then none
            else (numeral? 10 digits).map fun n => if down then -(n : Int) else n
          else none
      double? (Binary64.ofDecimal negative (← numeral? 10 (whole ++ fraction))
        (exponent - fraction.length))

/-- A double that has a name. -/
def namedDouble? (cs : List Char) : Option Value :=
  let (negative, name) := signed cs
  match String.ofList name with
  | "inf" => some (.float (.infinite negative))
  | "nan" => some (.float .nan)
  | _ => none

/-- A number or a truth value, with the text that follows it. -/
def word? (cs : List Char) : Option (Value × List Char) :=
  let word := cs.takeWhile fun c => c.isAlphanum || c == '_' || c == '+' || c == '-' || c == '.'
  let value? : Option Value := match word with
    | ['t', 'r', 'u', 'e'] => some (.bool true)
    | ['f', 'a', 'l', 's', 'e'] => some (.bool false)
    | '0' :: 'x' :: digits => based? 16 digits
    | '0' :: 'o' :: digits => based? 8 digits
    | '0' :: 'b' :: digits => based? 2 digits
    | _ => namedDouble? word <|> decimal? word
  value?.map fun v => (v, cs.drop word.length)

end BootEngine.Toml
