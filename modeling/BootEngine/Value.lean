import BootEngine.Number.Notation

/-!
# Values

The tree-shaped values of configuration sections, work programs and reports: null, truth values,
integers, double-precision numbers, texts, lists and tables. Integers are exact; a number that was
written with a point or an exponent, or that no machine integer holds, is a double.

Contents:
* `Value`: the values.
* `Value.get?`: the entry of a table.
* `Table.insert`: a table entry set, sorted by key.
-/

namespace BootEngine

/-- A tree of configuration data. The entries of a table have distinct keys. -/
inductive Value where
  | null
  | bool (b : Bool)
  | int (i : Int)
  | float (x : Number.Binary64)
  | text (s : String)
  | list (items : List Value)
  | table (entries : List (String × Value))
  deriving Inhabited, Repr

/-- The entries of a table, looked up by key. -/
def Table.get? {α : Type} (entries : List (String × α)) (key : String) : Option α :=
  entries.lookup key

/-- Sets the entry of a key; entries stay sorted by key. -/
def Table.insert {α : Type} (key : String) (value : α) : List (String × α) → List (String × α)
  | [] => [(key, value)]
  | entry :: rest =>
    if key == entry.1 then (key, value) :: rest
    else if key < entry.1 then (key, value) :: entry :: rest
    else entry :: Table.insert key value rest

/-- A table of the given entries; of several with one key the last one counts. -/
def Table.ofList {α : Type} (entries : List (String × α)) : List (String × α) :=
  entries.foldl (fun table entry => Table.insert entry.1 entry.2 table) []

namespace Value

/-- The entry of a table; other values have none. -/
def get? (key : String) : Value → Option Value
  | .table entries => Table.get? entries key
  | _ => none

end Value

end BootEngine
