/-!
# Blank text

White space in the sense of Unicode, and the texts that hold nothing else.

Contents:
* `isBlankChar`: the white space characters.
* `isBlank`: texts of white space only, the empty text among them.
-/

namespace BootEngine.Text

/-- White space: the controls from tab to carriage return, the space, next line, the no-break space,
    and the space separators, line and paragraph separators of the other scripts. -/
def isBlankChar (c : Char) : Bool :=
  let n := c.toNat
  (9 ≤ n && n ≤ 13) || n == 32 || n == 0x85 || n == 0xA0 || n == 0x1680 ||
    (0x2000 ≤ n && n ≤ 0x200A) || n == 0x2028 || n == 0x2029 || n == 0x202F || n == 0x205F ||
    n == 0x3000

/-- Every character that the core library calls white space is one here. -/
theorem isBlankChar_of_isWhitespace {c : Char} (h : c.isWhitespace = true) :
    isBlankChar c = true := by
  simp only [Char.isWhitespace, Bool.or_eq_true, decide_eq_true_eq] at h
  rcases h with ((h | h) | h) | h <;> subst h <;> decide

/-- A text is blank if all of its characters are white space. -/
def isBlank (s : String) : Bool := s.toList.all isBlankChar

end BootEngine.Text
