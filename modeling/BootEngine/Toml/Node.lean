import BootEngine.Toml.Stamp
import BootEngine.Value

/-!
# Tables of TOML documents

The tables of a document as its lines build them. A table is written within a line, opened by a
header, or only named on the way: by a header to a table within it, or by a key with dots. Nothing
is set twice. A header opens a table that headers have named, and no table that keys with dots have
made; such a key sets something in tables of its own making.

Contents:
* `Node`, `TableOrigin`: what a document holds, in the order in which it was written.
* `Node.setKey?`: a setting in a table.
* `Node.openTable?`, `Node.addTable?`, `Node.inTable?`: what headers do.
* `Node.toValue?`: the value of a node.
-/

namespace BootEngine.Toml

/-- What has made a table. -/
inductive TableOrigin where
  /-- It is complete, within a line. -/
  | inline
  /-- A header has opened it. -/
  | header
  /-- Headers have named it on the way to tables within it. -/
  | implied
  /-- Keys with dots have made it. -/
  | dotted
  deriving DecidableEq, Repr, Inhabited

/-- What a document holds: a number, a text or a truth value, a stamp, a list within a line, a
    table, or a list of tables that headers have opened. -/
inductive Node where
  | scalar (v : Value)
  | stamp (s : Stamp)
  | list (items : List Node)
  | table (origin : TableOrigin) (entries : List (String × Node))
  | tables (items : List (List (String × Node)))
  deriving Inhabited

namespace Node

/-- Sets the entry of a name; a new one comes last. -/
def insert (name : String) (node : Node) : List (String × Node) → List (String × Node)
  | [] => [(name, node)]
  | entry :: rest =>
    if entry.1 == name then (name, node) :: rest else entry :: insert name node rest

/-- The entries without those of a name. -/
def erase (name : String) (entries : List (String × Node)) : List (String × Node) :=
  entries.filter (·.1 != name)

/-- Sets a key that has not been set. The names in front of its last name lead through tables that
    no header has opened, or through the last of a list of tables, to a table that keys with dots
    have made. -/
def setKey? (node : Node) : List String → List (String × Node) → Option (List (String × Node))
  | [], _ => none
  | [name], entries =>
    match entries.lookup name with
    | some _ => none
    | none => some (insert name node entries)
  | name :: names, entries =>
    match entries.lookup name with
    | none => do return insert name (.table .dotted (← setKey? node names [])) entries
    | some (.table .dotted inner) => do
      return insert name (.table .dotted (← setKey? node names inner)) entries
    | some (.table .implied inner) =>
      if names.length == 1 then none
      else do return insert name (.table .implied (← setKey? node names inner)) entries
    | some (.tables items) =>
      if names.length == 1 then none
      else do
        let last ← items.getLast?
        return insert name (.tables (items.dropLast ++ [← setKey? node names last])) entries
    | some _ => none

/-- Goes down the path of a header and changes the entries of its last table. In a list of tables
    the path goes on in the last of them. -/
def inTable? (change : List (String × Node) → Option (List (String × Node))) :
    List String → List (String × Node) → Option (List (String × Node))
  | [], entries => change entries
  | name :: names, entries =>
    match entries.lookup name with
    | none => do return insert name (.table .implied (← inTable? change names [])) entries
    | some (.tables items) => do
      let last ← items.getLast?
      return insert name (.tables (items.dropLast ++ [← inTable? change names last])) entries
    | some (.table .inline _) => none
    | some (.table origin inner) => do
      return insert name (.table origin (← inTable? change names inner)) entries
    | some _ => none

/-- Opens a table that headers have named at most. It comes last from then on. -/
def openTable? (name : String) (entries : List (String × Node)) :
    Option (List (String × Node)) :=
  match entries.lookup name with
  | none => some (insert name (.table .header []) entries)
  | some (.table .implied inner) => some (insert name (.table .header inner) (erase name entries))
  | some _ => none

/-- Adds a table to a list of tables. -/
def addTable? (name : String) (entries : List (String × Node)) :
    Option (List (String × Node)) :=
  match entries.lookup name with
  | none => some (insert name (.tables [[]]) entries)
  | some (.tables items) => some (insert name (.tables (items ++ [[]])) entries)
  | some _ => none

/-! ## Values -/

/-- A table whose first entry has this name stands for the stamp that the entry spells. -/
def stampName : String := "$__toml_private_datetime"

mutual

/-- The value of a node. A stamp is a text. -/
def toValue? : Node → Option Value
  | .scalar v => some v
  | .stamp s => some (.text s.text)
  | .list items => do return .list (← toValues? items)
  | .table _ entries => tableValue? entries
  | .tables items => do return .list (← tableValues? items)

/-- The values of the items of a list. -/
def toValues? : List Node → Option (List Value)
  | [] => some []
  | node :: rest => do return (← toValue? node) :: (← toValues? rest)

/-- The value of a table. One that stands for a stamp has to spell one. -/
def tableValue? : List (String × Node) → Option Value
  | [] => some (.table [])
  | (name, node) :: rest =>
    if name == stampName then
      match node with
      | .scalar (.text s) => do return .text (← Stamp.ofText? s).text
      | _ => none
    else do
      let v ← toValue? node
      return .table (Table.ofList ((name, v) :: (← entryValues? rest)))

/-- The values of tables. -/
def tableValues? : List (List (String × Node)) → Option (List Value)
  | [] => some []
  | entries :: rest => do return (← tableValue? entries) :: (← tableValues? rest)

/-- The values of entries. -/
def entryValues? : List (String × Node) → Option (List (String × Value))
  | [] => some []
  | (name, node) :: rest => do return (name, ← toValue? node) :: (← entryValues? rest)

end

end Node

end BootEngine.Toml
