import BootEngine.Text.Printable

/-!
# Quoted text

The quoted form of a text, as it stands in the description of a value: between double quotes, with
quotes and backslashes escaped, the common controls by letter, and every other character that is not
printable by its code point.

Contents:
* `escape`: the written form of one character.
* `quote`: the written form of a text.
-/

namespace BootEngine.Text

/-- The hexadecimal digits of a number, least digit count, in small letters. -/
def hex (n : Nat) : String := String.ofList (Nat.toDigits 16 n)

/-- The written form of a character inside a quoted text. -/
def escape (c : Char) : String :=
  match c with
  | '"' => "\\\""
  | '\\' => "\\\\"
  | '\n' => "\\n"
  | '\r' => "\\r"
  | '\t' => "\\t"
  | '\x00' => "\\0"
  | c => if isPrintable c then c.toString else "\\u\x7b" ++ hex c.toNat ++ "\x7d"

/-- A text between double quotes, character by character in its written form. -/
def quote (s : String) : String := "\"" ++ String.join (s.toList.map escape) ++ "\""

end BootEngine.Text
