import BootEngine.Settings.Tree
import BootEngine.Text.Digits

/-!
# Paths

Where a setting stands in a tree: names joined by dots, with the places of list items in square
brackets. The letters of a path are small ones, and a text that is no path is a single name.

Contents:
* `PathStep`, `Path`: the steps of a path.
* `Path.ofText`: the path that a text spells.
* `Tree.setAt`, `Tree.put`: a setting put at a path.
* `Tree.putAll`: the entries of a document put at their paths.
-/

namespace BootEngine

/-- A step of a path: to an entry of a table, or to an item of a list. Places below zero are counted
    from the end. -/
inductive PathStep where
  | entry (name : String)
  | item (place : Int)
  deriving DecidableEq, Repr, Inhabited

/-- The steps from the root of a tree to a setting. -/
abbrev Path := List PathStep

namespace Path

/-- The characters of a name in a path. -/
def isNameChar (c : Char) : Bool := c.isAlphanum || c == ' ' || c == '_' || c == '-'

/-- Leaves out the blanks in front of a text. -/
def dropBlanks (cs : List Char) : List Char := cs.dropWhile fun c => c == ' ' || c == '\t'

/-- A place in square brackets, with blanks around it or without, and the text that follows it. A
    number beyond 64 bits with a sign is no place. -/
def bracketed? (cs : List Char) : Option (Int × List Char) :=
  let cs := dropBlanks cs
  let negative := cs.head? == some '-'
  let body := if negative then cs.drop 1 else cs
  let digits := body.takeWhile Char.isDigit
  match digits, dropBlanks (body.drop digits.length) with
  | _ :: _, ']' :: rest =>
    let n : Int := Text.decimal digits
    let place := if negative then -n else n
    if Number.fitsSigned place then some (place, rest) else none
  | _, _ => none

/-- The steps after the first name; each takes at least one character. -/
def more? : Nat → List Char → Option Path
  | _, [] => some []
  | 0, _ => none
  | fuel + 1, '.' :: rest =>
    let name := rest.takeWhile isNameChar
    if name.isEmpty then none
    else (more? fuel (rest.drop name.length)).map (.entry (String.ofList name) :: ·)
  | fuel + 1, '[' :: rest =>
    match bracketed? rest with
    | some (place, rest) => (more? fuel rest).map (.item place :: ·)
    | none => none
  | _, _ => none

/-- The path that a text spells in small letters, or the text as a single name. -/
def ofText (s : String) : Path :=
  let cs := (Text.lowerCase s).toList
  let name := cs.takeWhile isNameChar
  let rest := cs.drop name.length
  match name, more? rest.length rest with
  | _ :: _, some steps => .entry (String.ofList name) :: steps
  | _, _ => [.entry (String.ofList cs)]

end Path

/-- The place that a step means in a list of a given length. -/
def placeIn (length : Nat) (place : Int) : Nat :=
  if 0 ≤ place then place.toNat else length - place.natAbs

namespace Tree

/-- Puts an item into a list, which grows by empty settings as far as it has to. -/
def setItem (items : List Tree) (place : Nat) (item : Tree) : List Tree :=
  (items ++ List.replicate (place + 1 - items.length) (Tree.leaf .null false)).set place item

/-- Changes what stands at a path. What stands in the way and is no table, or no list, makes
    room. -/
def setAt (change : Option Tree → Tree) : Path → Option Tree → Tree
  | [], old => change old
  | .entry name :: rest, old =>
    let entries := (old.getD empty).entries
    .table (Table.insert name (setAt change rest (Table.get? entries name)) entries)
  | .item place :: rest, old =>
    let items := (old.getD empty).items
    let place := placeIn items.length place
    .list (setItem items place (setAt change rest items[place]?))

/-- Puts a value at a path: a table is merged into what an entry held, while an item is replaced. -/
def put (path : Path) (v : Value) (t : Tree) : Tree :=
  match path.getLast? with
  | some (.item _) => setAt (fun _ => ofValue v) path (some t)
  | _ => setAt (fun old => merge old (ofValue v)) path (some t)

/-- Puts the entries of a document at the paths that their keys spell. -/
def putAll (entries : List (String × Value)) (t : Tree) : Tree :=
  entries.foldl (fun t entry => t.put (Path.ofText entry.1) entry.2) t

end Tree

end BootEngine
