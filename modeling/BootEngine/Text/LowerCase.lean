import BootEngine.Text.CaseTable
import BootEngine.Text.Printable

/-!
# Lower case

The small-letter form of a text by the full case mapping: every capital letter by its small letter,
the dotted capital I by two characters, and the capital sigma by the small letter that its place in
the word asks for.

Contents:
* `lowerChar`: the image of one character, apart from its neighbours.
* `lowerCase`: the image of a text.
* `sameUpToAsciiCase`: equality that ignores the case of ASCII letters only.
-/

namespace BootEngine.Text

/-- The small letter of a code point, if a run of capital letters holds it. -/
def lowerCode (code : Nat) : Option Nat :=
  lowerRuns.findSome? fun (first, last, stride, image) =>
    if first ≤ code && code ≤ last && (code - first) % stride == 0 then
      some (image + (code - first))
    else none

/-- The image of a character that does not look at its neighbours. The capital I with a dot keeps
    its dot as a combining mark. -/
def lowerChar (c : Char) : List Char :=
  if c.toNat < 128 then [c.toLower]
  else if c.toNat == 0x130 then ['i', Char.ofNat 0x307]
  else match lowerCode c.toNat with
    | some code => [Char.ofNat code]
    | none => [c]

/-- The first character that counts, after those that are skipped, has case. -/
def nextIsCased : List Char → Bool
  | [] => false
  | c :: rest =>
    if inRanges caseIgnorableRanges c.toNat then nextIsCased rest
    else inRanges casedRanges c.toNat

/-- Lower case of the characters that follow `before`, which holds the characters already read, last
    one first. A capital sigma at the end of a word becomes the final form. -/
def lowerFrom (before : List Char) : List Char → List Char
  | [] => []
  | c :: rest =>
    if c.toNat == 0x3A3 then
      (if nextIsCased before && !nextIsCased rest then Char.ofNat 0x3C2 else Char.ofNat 0x3C3) ::
        lowerFrom (c :: before) rest
    else lowerChar c ++ lowerFrom (c :: before) rest

/-- The small-letter form of a text. -/
def lowerCase (s : String) : String := String.ofList (lowerFrom [] s.toList)

/-- Two texts are the same up to the case of their ASCII letters. -/
def sameUpToAsciiCase (s t : String) : Bool :=
  s.toList.map Char.toLower == t.toList.map Char.toLower

end BootEngine.Text
