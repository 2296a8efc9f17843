import BootEngine.Settings.Path

/-!
# The environment as a source

Variables whose names begin with a common mark are settings. What follows the mark is the path, with
two underscores for a dot. A value that reads as a truth value or as a number is one; of the others
those at the paths of lists are cut at commas.

Contents:
* `truthOf?`, `integerOf?`, `doubleOf?`: the values that a text reads as.
* `listPaths`: the paths of settings that are lists.
* `variablePath?`, `variableTree`: a variable as a setting.
* `Tree.putVariable`: a variable put into a tree.
-/

namespace BootEngine.Environment

open Number (Binary64)
open Text (signed)

/-- A truth value, in letters of any case. -/
def truthOf? (s : String) : Option Bool :=
  let s := Text.lowerCase s
  if s == "true" then some true else if s == "false" then some false else none

/-- An integer of 64 bits with a sign. -/
def integerOf? (s : String) : Option Int :=
  let (negative, digits) := signed s.toList
  if digits.isEmpty || !digits.all Char.isDigit then none
  else
    let n : Int := Text.decimal digits
    let i := if negative then -n else n
    if Number.fitsSigned i then some i else none

/-- The exponent of a decimal, if what is left of its text is one. -/
def exponentOf? (cs : List Char) : Option Int :=
  match cs with
  | [] => some 0
  | c :: rest =>
    if c == 'e' || c == 'E' then
      let (negative, digits) := signed rest
      if digits.isEmpty || !digits.all Char.isDigit then none
      else
        let n : Int := Text.decimal digits
        some (if negative then -n else n)
    else none

/-- A double without its sign: a decimal, or a name for infinity or for what is no number. -/
def magnitudeOf? (negative : Bool) (cs : List Char) : Option Binary64 :=
  let name := String.ofList (cs.map Char.toLower)
  if name == "inf" || name == "infinity" then some (.infinite negative)
  else if name == "nan" then some .nan
  else
    let whole := cs.takeWhile Char.isDigit
    let afterWhole := cs.drop whole.length
    let (fraction, rest) := match afterWhole with
      | '.' :: more => (more.takeWhile Char.isDigit, more.dropWhile Char.isDigit)
      | other => ([], other)
    if whole.isEmpty && fraction.isEmpty then none
    else
      (exponentOf? rest).map fun exponent =>
        Binary64.ofDecimal negative (Text.decimal (whole ++ fraction)) (exponent - fraction.length)

/-- A double. -/
def doubleOf? (s : String) : Option Binary64 :=
  let (negative, rest) := signed s.toList
  magnitudeOf? negative rest

/-- The pieces of a text between commas. -/
def pieces : List Char → List (List Char)
  | [] => [[]]
  | c :: rest =>
    if c == ',' then [] :: pieces rest
    else
      match pieces rest with
      | [] => [[c]]
      | first :: others => (c :: first) :: others

/-- The paths of the settings that are lists. -/
def listPaths : List String := ["scan.namespaces", "features.disabled"]

/-- Two underscores become a dot, from the left. -/
def dotted : List Char → List Char
  | '_' :: '_' :: rest => '.' :: dotted rest
  | c :: rest => c :: dotted rest
  | [] => []

/-- What follows `front` in a text that begins with it. -/
def after? : List Char → List Char → Option (List Char)
  | [], cs => some cs
  | _ :: _, [] => none
  | a :: front, c :: cs => if a == c then after? front cs else none

/-- The path of a variable whose name begins with a mark and an underscore, in letters of any
    case. -/
def variablePath? (mark name : String) : Option String :=
  (after? (Text.lowerCase (mark ++ "_")).toList (Text.lowerCase name).toList).map fun rest =>
    String.ofList (dotted rest)

/-- A variable's value as a setting at a path. -/
def variableTree (path text : String) : Tree :=
  match truthOf? text with
  | some b => .leaf (.bool b) true
  | none =>
    match integerOf? text with
    | some i => .leaf (.int i) true
    | none =>
      match doubleOf? text with
      | some x => .leaf (.float x) true
      | none =>
        if listPaths.contains path then
          .list ((pieces text.toList).map fun piece => .leaf (.text (String.ofList piece)) true)
        else .leaf (.text text) true

end BootEngine.Environment

namespace BootEngine

/-- Puts a variable into a tree, if its name begins with the mark. -/
def Tree.putVariable (mark : String) (entry : String × String) (t : Tree) : Tree :=
  match Environment.variablePath? mark entry.1 with
  | none => t
  | some path =>
    .setAt (fun _ => Environment.variableTree path entry.2) (Path.ofText path) (some t)

end BootEngine
