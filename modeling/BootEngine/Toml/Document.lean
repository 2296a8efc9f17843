import BootEngine.Toml.Node
import BootEngine.Toml.Quoted
import BootEngine.Toml.Scalar

/-!
# TOML documents

A document is a list of lines: headers that open a table, or add one to a list of tables, and
settings in the table that is open. A key may be a path of names. Values lie within one another less
than eighty levels deep, and a key has less than eighty names.

Contents:
* `keyPath?`, `value?`: keys and values.
* `lines?`: the tables of a document.
* `read`: the value of a document, or nothing if it is at fault.
-/

namespace BootEngine.Toml

/-- How many levels of values, or names of a key, are too many. -/
def depthLimit : Nat := 80

/-! ## Keys -/

/-- A name within a key. -/
def name? (cs : List Char) : Option (String × List Char) :=
  match cs with
  | '"' :: rest => do
    let (name, rest) ← quotedText? (rest.length + 1) rest
    return (String.ofList name, rest)
  | '\'' :: rest => do
    let (name, rest) ← literalText? rest
    return (String.ofList name, rest)
  | cs =>
    let name := cs.takeWhile fun c => c.isAlphanum || c == '_' || c == '-'
    if name.isEmpty then none else some (String.ofList name, cs.drop name.length)

/-- Names with dots between them. -/
def names? : Nat → List Char → Option (List String × List Char)
  | 0, _ => none
  | fuel + 1, cs => do
    let (name, rest) ← name? (skipBlanks cs)
    match skipBlanks rest with
    | '.' :: rest =>
      let (names, rest) ← names? fuel rest
      return (name :: names, rest)
    | rest => return ([name], rest)

/-- A key. -/
def keyPath? (cs : List Char) : Option (List String × List Char) := names? (depthLimit - 1) cs

/-! ## Values -/

/-- A stamp, a number or a truth value. -/
def scalar? (cs : List Char) : Option (Node × List Char) :=
  match Stamp.read? isCivilOffset cs with
  | some (stamp, rest) => some (.stamp stamp, rest)
  | none => (word? cs).map fun (v, rest) => (.scalar v, rest)

mutual

/-- A value that has room for some levels of others. -/
def value? : Nat → Nat → List Char → Option (Node × List Char)
  | 0, _, _ => none
  | fuel + 1, room, cs =>
    match cs, room with
    | '[' :: _, 0 => none
    | '[' :: rest, room + 1 => do
      let (items, rest) ← items? fuel room (skipLines rest)
      return (.list items, rest)
    | '\x7b' :: _, 0 => none
    | '\x7b' :: rest, room + 1 => do
      let (entries, rest) ← entries? fuel room (skipBlanks rest) []
      return (.table .inline entries, rest)
    | '"' :: _, _ => (text? cs).map fun (s, rest) => (.scalar (.text s), rest)
    | '\'' :: _, _ => (text? cs).map fun (s, rest) => (.scalar (.text s), rest)
    | _, _ => scalar? cs

/-- The items of a list up to its end. -/
def items? : Nat → Nat → List Char → Option (List Node × List Char)
  | 0, _, _ => none
  | fuel + 1, room, cs =>
    match cs with
    | ']' :: rest => some ([], rest)
    | cs => do
      let (item, rest) ← value? fuel room cs
      match skipLines rest with
      | ',' :: rest =>
        let (items, rest) ← items? fuel room (skipLines rest)
        return (item :: items, rest)
      | ']' :: rest => return ([item], rest)
      | _ => none

/-- The settings of a table within a line up to its end. -/
def entries? : Nat → Nat → List Char → List (String × Node) →
    Option (List (String × Node) × List Char)
  | 0, _, _, _ => none
  | fuel + 1, room, cs, entries =>
    match cs with
    | '\x7d' :: rest => if entries.isEmpty then some (entries, rest) else none
    | cs => do
      let (path, rest) ← keyPath? cs
      let rest ← expect? '=' rest
      let (node, rest) ← value? fuel room (skipBlanks rest)
      let entries ← Node.setKey? node path entries
      match skipBlanks rest with
      | '\x7d' :: rest => return (entries, rest)
      | ',' :: rest =>
        match skipBlanks rest with
        | '\x7d' :: _ => none
        | rest => entries? fuel room rest entries
      | _ => none

end

/-! ## Documents -/

/-- A header: the path of its table, with the text that follows. -/
def header? (cs : List Char) : Option (List String × List Char) := do
  let (path, rest) ← keyPath? cs
  return (path, ← expect? ']' rest)

/-- Reads lines one after another into the root, the open table at a path. -/
def lines? : Nat → List Char → List String → List (String × Node) → Option (List (String × Node))
  | 0, _, _, _ => none
  | fuel + 1, cs, here, root =>
    match skipLines cs with
    | [] => some root
    | '[' :: '[' :: rest => do
      let (path, rest) ← header? rest
      let rest ← lineRest? (← expect? ']' rest)
      let root ← Node.inTable? (Node.addTable? (path.getLast?.getD "")) path.dropLast root
      lines? fuel rest path root
    | '[' :: rest => do
      let (path, rest) ← header? rest
      let rest ← lineRest? rest
      let root ← Node.inTable? (Node.openTable? (path.getLast?.getD "")) path.dropLast root
      lines? fuel rest path root
    | cs => do
      let (path, rest) ← keyPath? cs
      let rest ← expect? '=' rest
      let (node, rest) ← value? (2 * cs.length + 2) (depthLimit - 1) (skipBlanks rest)
      let rest ← lineRest? rest
      let root ← Node.inTable? (Node.setKey? node path) here root
      lines? fuel rest here root

/-- The value of a document; a byte order mark in front does not belong to it. -/
def read (s : String) : Option Value := do
  let cs := match s.toList with
    | '\ufeff' :: rest => rest
    | cs => cs
  Node.tableValue? (← lines? (cs.length + 1) cs [] [])

end BootEngine.Toml
