/-!
# Machine integers

The ranges of the integers that a machine word holds.

Contents:
* `wordCount`: how many numbers a word can hold.
* `fitsSigned`, `fitsUnsigned`: the integers that a word holds.
-/

namespace BootEngine.Number

/-- How many numbers a word of some bits can hold. -/
def wordCount (bits : Nat) : Nat := Nat.pow 2 bits

/-- The integer fits into 64 bits with a sign. -/
def fitsSigned (i : Int) : Bool := -(wordCount 63 : Int) ≤ i && i < (wordCount 63 : Int)

/-- The integer fits into a number of bits without a sign. -/
def fitsUnsigned (bits : Nat) (i : Int) : Bool := 0 ≤ i && i < (wordCount bits : Int)

end BootEngine.Number
