import BootEngine.Text.Quoted

/-!
# Descriptions of values

The one-line description of a structured value: `Name { field: value, … }`, lists in square
brackets, an optional value as `Some(value)` or `None`, a text in its quoted form.

Contents:
* `record`, `openRecord`: a value with named fields, complete or with parts left out.
* `listing`, `optional`, `flag`: lists, optional values, truth values.
-/

namespace BootEngine.Text

/-- Named fields joined by commas, each as `name: value`. -/
def fields (parts : List (String × String)) : String :=
  ", ".intercalate (parts.map fun part => part.1 ++ ": " ++ part.2)

/-- A value described by all of its fields. -/
def record (name : String) (parts : List (String × String)) : String :=
  name ++ " \x7b " ++ fields parts ++ " \x7d"

/-- A value described by some of its fields; two dots stand for the others. -/
def openRecord (name : String) (parts : List (String × String)) : String :=
  name ++ " \x7b " ++ fields parts ++ ", .. \x7d"

/-- A list of described values. -/
def listing (items : List String) : String := "[" ++ ", ".intercalate items ++ "]"

/-- An optional value, given the description of what it may hold. -/
def optional : Option String → String
  | none => "None"
  | some text => "Some(" ++ text ++ ")"

/-- A truth value. -/
def flag (b : Bool) : String := if b then "true" else "false"

end BootEngine.Text
