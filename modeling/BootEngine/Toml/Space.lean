/-!
# Space in TOML documents

Blanks, line breaks and comments. A line ends with a line feed, or with a carriage return and a line
feed; a carriage return alone is no line break and no space. Control characters other than the tab
stand nowhere in a document.

Contents:
* `isBlank`, `isPlain`: blanks, and the characters that a line may hold.
* `newline?`: a line break.
* `skipBlanks`, `skipBreaks`, `skipLines`: the text after blanks, after line breaks too, and after
  comments too.
* `lineRest?`: the text after the end of a line.
-/

namespace BootEngine.Toml

/-- A blank within a line. -/
def isBlank (c : Char) : Bool := c == ' ' || c == '\t'

/-- A line may hold this character as it is. -/
def isPlain (c : Char) : Bool := c == '\t' || (c.toNat ≥ 32 && c.toNat != 127)

/-- A line break, with the text that follows it. -/
def newline? : List Char → Option (List Char)
  | '\n' :: rest => some rest
  | '\r' :: '\n' :: rest => some rest
  | _ => none

/-- Leaves out blanks. -/
def skipBlanks (cs : List Char) : List Char := cs.dropWhile isBlank

/-- Leaves out blanks and line breaks. -/
def skipBreaks : List Char → List Char
  | [] => []
  | '\r' :: '\n' :: rest => skipBreaks rest
  | c :: rest => if isBlank c || c == '\n' then skipBreaks rest else c :: rest

/-- Leaves out a comment up to the end of its line. -/
def skipComment : List Char → List Char
  | '#' :: rest => rest.dropWhile isPlain
  | cs => cs

/-- What is left of a list after its first items is not longer. -/
theorem length_dropWhile_le {α : Type} (p : α → Bool) (l : List α) :
    (l.dropWhile p).length ≤ l.length :=
  (List.dropWhile_sublist p).length_le

/-- Leaves out blanks, line breaks and comments. -/
def skipLines : List Char → List Char
  | [] => []
  | '\r' :: '\n' :: rest => skipLines rest
  | c :: rest =>
    if isBlank c || c == '\n' then skipLines rest
    else if c == '#' then skipLines (rest.dropWhile isPlain)
    else c :: rest
termination_by cs => cs.length
decreasing_by
  · simp only [List.length_cons]; omega
  · simp only [List.length_cons]; omega
  · have := length_dropWhile_le isPlain rest
    simp only [List.length_cons]
    omega

/-- The end of a line: blanks, a comment, and a line break or the end of the document. -/
def lineRest? (cs : List Char) : Option (List Char) :=
  match skipComment (skipBlanks cs) with
  | [] => some []
  | rest => newline? rest

end BootEngine.Toml
