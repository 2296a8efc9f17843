import BootEngine.Number.Scaling
import BootEngine.Text.Digits
import BootEngine.Value

/-!
# JSON documents

The written form of values in JSON. An integer is a number without a point and without an exponent
that a machine integer holds; every other number is a double, read digit by digit and then scaled by
a power of ten. Of several entries of a table with one key the last one counts.

Contents:
* `text?`, `number?`, `value?`: the readers of the parts of a document.
* `read`: the value of a document, or nothing if it is at fault.
* `write`: the document of a value.
* `reread`: a value as its document is read.
-/

namespace BootEngine.Json

open Number (Binary64)

/-- Leaves out white space. -/
def skipSpace (cs : List Char) : List Char :=
  cs.dropWhile fun c => c == ' ' || c == '\t' || c == '\n' || c == '\r'

/-! ## Texts -/

/-- The number that the next four digits spell. -/
def unit? (cs : List Char) : Option (Nat × List Char) := do
  let digits := cs.take 4
  if digits.length < 4 then none
  else return (← Text.numeral? 16 digits, cs.drop 4)

/-- The character that one or two units spell: a character beyond the first plane takes two. -/
def spelled? (cs : List Char) : Option (Char × List Char) := do
  let (high, rest) ← unit? cs
  if 0xD800 ≤ high && high < 0xDC00 then
    match rest with
    | '\\' :: 'u' :: rest =>
      let (low, rest) ← unit? rest
      if 0xDC00 ≤ low && low < 0xE000 then
        return (← Text.codePoint? (0x10000 + (high - 0xD800) * 0x400 + (low - 0xDC00)), rest)
      else none
    | _ => none
  else return (← Text.codePoint? high, rest)

/-- The character that a backslash and what follows stand for. -/
def escaped? : List Char → Option (Char × List Char)
  | '"' :: rest => some ('"', rest)
  | '\\' :: rest => some ('\\', rest)
  | '/' :: rest => some ('/', rest)
  | 'b' :: rest => some ('\x08', rest)
  | 'f' :: rest => some ('\x0c', rest)
  | 'n' :: rest => some ('\n', rest)
  | 'r' :: rest => some ('\r', rest)
  | 't' :: rest => some ('\t', rest)
  | 'u' :: rest => spelled? rest
  | _ => none

/-- The rest of a text after its first quote, given what stands before, newest first. -/
def text? (before : List Char) : Nat → List Char → Option (String × List Char)
  | 0, _ => none
  | _, [] => none
  | _, '"' :: rest => some (String.ofList before.reverse, rest)
  | fuel + 1, '\\' :: rest => do
    let (c, rest) ← escaped? rest
    text? (c :: before) fuel rest
  | fuel + 1, c :: rest => if c.toNat < 32 then none else text? (c :: before) fuel rest

/-! ## Numbers -/

/-- The digits at the start; there has to be one at least. -/
def digits? (cs : List Char) : Option (List Char × List Char) :=
  let digits := cs.takeWhile Char.isDigit
  if digits.isEmpty then none else some (digits, cs.drop digits.length)

/-- The digits after the point, none if there is no point. -/
def fraction? : List Char → Option (List Char × List Char)
  | '.' :: rest => digits? rest
  | cs => some ([], cs)

/-- The exponent, zero if there is none. -/
def exponent? : List Char → Option (Int × List Char)
  | c :: rest =>
    if c == 'e' || c == 'E' then do
      let (negative, rest) := match rest with
        | '-' :: rest => (true, rest)
        | '+' :: rest => (false, rest)
        | rest => (false, rest)
      let (digits, rest) ← digits? rest
      let n ← Text.numeral? 10 digits
      return (if negative then -(n : Int) else n, rest)
    else some (0, c :: rest)
  | [] => some (0, [])

/-- The integer of a sign and a magnitude, if a machine integer holds it. Minus zero is a double. -/
def integer? (negative : Bool) (n : Nat) : Option Int :=
  if negative then if n ≠ 0 && Number.fitsSigned (-(n : Int)) then some (-(n : Int)) else none
  else if Number.fitsUnsigned 64 n then some n else none

/-- A number. -/
def number? (cs : List Char) : Option (Value × List Char) := do
  let (negative, cs) := match cs with
    | '-' :: rest => (true, rest)
    | cs => (false, cs)
  let (whole, afterWhole) ← digits? cs
  let (fraction, rest) ← fraction? afterWhole
  let (exponent, rest) ← exponent? rest
  let isWhole := rest.length == afterWhole.length
  match if isWhole then integer? negative (Text.decimal whole) else none with
  | some i => return (.int i, rest)
  | none => return (.float (← Binary64.ofDigits? negative whole fraction exponent), rest)

/-! ## Documents -/

/-- The rest after a word. -/
def word? : List Char → List Char → Option (List Char)
  | [], rest => some rest
  | _ :: _, [] => none
  | a :: word, c :: rest => if a == c then word? word rest else none

mutual

/-- A value. -/
def value? : Nat → List Char → Option (Value × List Char)
  | 0, _ => none
  | fuel + 1, cs =>
    match skipSpace cs with
    | '"' :: rest => do
      let (s, rest) ← text? [] (rest.length + 1) rest
      return (.text s, rest)
    | '[' :: rest =>
      match skipSpace rest with
      | ']' :: rest => some (.list [], rest)
      | rest => do
        let (items, rest) ← items? fuel rest
        return (.list items, rest)
    | '\x7b' :: rest =>
      match skipSpace rest with
      | '\x7d' :: rest => some (.table [], rest)
      | rest => do
        let (entries, rest) ← entries? fuel rest
        return (.table (Table.ofList entries), rest)
    | 't' :: rest => do return (.bool true, ← word? "rue".toList rest)
    | 'f' :: rest => do return (.bool false, ← word? "alse".toList rest)
    | 'n' :: rest => do return (.null, ← word? "ull".toList rest)
    | cs => number? cs

/-- The items of a list, up to its end. -/
def items? : Nat → List Char → Option (List Value × List Char)
  | 0, _ => none
  | fuel + 1, cs => do
    let (item, rest) ← value? fuel cs
    match skipSpace rest with
    | ']' :: rest => return ([item], rest)
    | ',' :: rest =>
      let (items, rest) ← items? fuel rest
      return (item :: items, rest)
    | _ => none

/-- The entries of a table, up to its end. -/
def entries? : Nat → List Char → Option (List (String × Value) × List Char)
  | 0, _ => none
  | fuel + 1, cs =>
    match skipSpace cs with
    | '"' :: rest => do
      let (key, rest) ← text? [] (rest.length + 1) rest
      let (v, rest) ← value? fuel (← word? [':'] (skipSpace rest))
      match skipSpace rest with
      | '\x7d' :: rest => return ([(key, v)], rest)
      | ',' :: rest =>
        let (entries, rest) ← entries? fuel rest
        return ((key, v) :: entries, rest)
      | _ => none
    | _ => none

end

/-- The value of a document; nothing but white space may follow it. -/
def read (s : String) : Option Value := do
  let cs := s.toList
  let (v, rest) ← value? (2 * cs.length + 2) cs
  if (skipSpace rest).isEmpty then some v else none

/-! ## Writing -/

/-- The written form of a character inside a text. -/
def escape (c : Char) : String :=
  match c with
  | '"' => "\\\""
  | '\\' => "\\\\"
  | '\n' => "\\n"
  | '\r' => "\\r"
  | '\t' => "\\t"
  | c =>
    if c.toNat < 32 then
      "\\u" ++ String.ofList (Number.padLeft 4 (Nat.toDigits 16 c.toNat))
    else c.toString

/-- The written form of a text. -/
def quote (s : String) : String := "\"" ++ String.join (s.toList.map escape) ++ "\""

mutual

/-- The document of a value, on one line. -/
def write : Value → String
  | .null => "null"
  | .bool b => if b then "true" else "false"
  | .int i => toString i
  | .float x => if x.isFinite then x.render Number.readerForm else "null"
  | .text s => quote s
  | .list items => "[" ++ ",".intercalate (writeItems items) ++ "]"
  | .table entries => "\x7b" ++ ",".intercalate (writeEntries entries) ++ "\x7d"

/-- The documents of several values. -/
def writeItems : List Value → List String
  | [] => []
  | v :: rest => write v :: writeItems rest

/-- The written forms of the entries of a table. -/
def writeEntries : List (String × Value) → List String
  | [] => []
  | (key, v) :: rest => (quote key ++ ":" ++ write v) :: writeEntries rest

end

/-- A value as its document is read. A double in it may turn into a neighbour. -/
def reread (v : Value) : Value := (read (write v)).getD v

end BootEngine.Json
