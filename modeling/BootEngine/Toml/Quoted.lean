import BootEngine.Text.Digits
import BootEngine.Toml.Space

/-!
# Texts in TOML documents

A text stands in double quotes, with characters written by a backslash, or in single quotes, as it
is. Three quotes open a block, which may hold line breaks; each of them counts as a line feed. A
block ends with three quotes, and one or two more in front of them belong to it.

Contents:
* `escaped?`: a character written by a backslash.
* `quotedText?`, `literalText?`: texts within a line.
* `blockText?`, `literalBlock?`: blocks.
* `text?`: a text in one of the four forms.
-/

namespace BootEngine.Toml

open Text (numeral? codePoint?)

/-- The character that a backslash and what follows stand for. -/
def escaped? : List Char → Option (Char × List Char)
  | 'b' :: rest => some ('\x08', rest)
  | 't' :: rest => some ('\t', rest)
  | 'n' :: rest => some ('\n', rest)
  | 'f' :: rest => some ('\x0c', rest)
  | 'r' :: rest => some ('\r', rest)
  | '"' :: rest => some ('"', rest)
  | '\\' :: rest => some ('\\', rest)
  | 'u' :: rest => coded? 4 rest
  | 'U' :: rest => coded? 8 rest
  | _ => none
where
  /-- The character whose number stands in so many digits. -/
  coded? (count : Nat) (cs : List Char) : Option (Char × List Char) := do
    let digits := cs.take count
    if digits.length < count then none
    else return (← codePoint? (← numeral? 16 digits), cs.drop count)

/-- The rest of a text in double quotes. -/
def quotedText? : Nat → List Char → Option (List Char × List Char)
  | 0, _ => none
  | _, '"' :: rest => some ([], rest)
  | fuel + 1, '\\' :: rest => do
    let (c, rest) ← escaped? rest
    let (cs, rest) ← quotedText? fuel rest
    return (c :: cs, rest)
  | fuel + 1, c :: rest =>
    if isPlain c then do
      let (cs, rest) ← quotedText? fuel rest
      return (c :: cs, rest)
    else none
  | _, [] => none

/-- The rest of a text in single quotes, which holds every character as it is. -/
def literalText? : List Char → Option (List Char × List Char)
  | [] => none
  | c :: rest =>
    if c == '\'' then some ([], rest)
    else if isPlain c then do
      let (cs, rest) ← literalText? rest
      return (c :: cs, rest)
    else none

/-- The line break at the start of a block does not belong to it. -/
def dropBreak (cs : List Char) : List Char := (newline? cs).getD cs

/-- A backslash at the end of a line takes the space after it away. -/
def lineEnd? (cs : List Char) : Option (List Char) :=
  (newline? (skipBlanks cs)).map skipBreaks

/-- The end of a block: three quotes, in front of which up to two more belong to the block. -/
def blockEnd? (quote : Char) (cs : List Char) : Option (List Char × List Char) :=
  let quotes := min 5 (cs.takeWhile (· == quote)).length
  if quotes < 3 then none else some (List.replicate (quotes - 3) quote, cs.drop quotes)

/-- The rest of a block in double quotes. -/
def blockText? : Nat → List Char → Option (List Char × List Char)
  | 0, _ => none
  | fuel + 1, cs =>
    match blockEnd? '"' cs, newline? cs, cs with
    | some found, _, _ => some found
    | none, some rest, _ => do
      let (cs, rest) ← blockText? fuel rest
      return ('\n' :: cs, rest)
    | none, none, '\\' :: rest =>
      match lineEnd? rest with
      | some rest => blockText? fuel rest
      | none => do
        let (c, rest) ← escaped? rest
        let (cs, rest) ← blockText? fuel rest
        return (c :: cs, rest)
    | none, none, c :: rest =>
      if isPlain c then do
        let (cs, rest) ← blockText? fuel rest
        return (c :: cs, rest)
      else none
    | none, none, [] => none

/-- The rest of a block in single quotes. -/
def literalBlock? : Nat → List Char → Option (List Char × List Char)
  | 0, _ => none
  | fuel + 1, cs =>
    match blockEnd? '\'' cs, newline? cs, cs with
    | some found, _, _ => some found
    | none, some rest, _ => do
      let (cs, rest) ← literalBlock? fuel rest
      return ('\n' :: cs, rest)
    | none, none, c :: rest =>
      if isPlain c then do
        let (cs, rest) ← literalBlock? fuel rest
        return (c :: cs, rest)
      else none
    | none, none, [] => none

/-- A text in one of its forms. -/
def text? (cs : List Char) : Option (String × List Char) := do
  let (found, rest) ← match cs with
    | '"' :: '"' :: '"' :: rest => blockText? (rest.length + 1) (dropBreak rest)
    | '\'' :: '\'' :: '\'' :: rest => literalBlock? (rest.length + 1) (dropBreak rest)
    | '"' :: rest => quotedText? (rest.length + 1) rest
    | '\'' :: rest => literalText? rest
    | _ => none
  return (String.ofList found, rest)

end BootEngine.Toml
