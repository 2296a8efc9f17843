import BootEngine.Text.LowerCase
import BootEngine.Value

/-!
# Configuration trees

The one tree that all sources of a configuration are merged into, later sources over earlier ones.
Keys are in small letters. A table is merged entry by entry; everything else replaces what was
there.

Contents:
* `Tree`: a tree whose leaves know whether they come from the environment.
* `Tree.ofValue`, `Tree.toValue`: trees from values, and values from trees.
* `Tree.merge`: a tree put over another one.
-/

namespace BootEngine

/-- A tree of settings. A leaf holds a value that is neither a list nor a table. -/
inductive Tree where
  | leaf (value : Value) (fromEnvironment : Bool)
  | list (items : List Tree)
  | table (entries : List (String × Tree))
  deriving Inhabited, Repr

namespace Tree

/-- A tree without settings. -/
def empty : Tree := .table []

/-- The entries of a table; other trees have none. -/
def entries : Tree → List (String × Tree)
  | .table entries => entries
  | _ => []

/-- The items of a list; other trees have none. -/
def items : Tree → List Tree
  | .list items => items
  | _ => []

/-- A leaf with a value. An integer beyond 64 bits with a sign becomes a double. -/
def ofScalar (fromEnvironment : Bool) : Value → Tree
  | .int i =>
    .leaf (if Number.fitsSigned i then .int i else .float (Number.Binary64.ofInt i))
      fromEnvironment
  | v => .leaf v fromEnvironment

mutual

/-- A tree with the keys that its value has. -/
def ofValue : Value → Tree
  | .list items => .list (ofValues items)
  | .table entries => .table (ofEntries entries)
  | v => ofScalar false v

/-- Trees of the items of a list. -/
def ofValues : List Value → List Tree
  | [] => []
  | v :: rest => ofValue v :: ofValues rest

/-- Trees of the entries of a table. -/
def ofEntries : List (String × Value) → List (String × Tree)
  | [] => []
  | (key, v) :: rest => (key, ofValue v) :: ofEntries rest

end

mutual

/-- The value of a tree. A number that is not finite has none and becomes null. -/
def toValue : Tree → Value
  | .leaf (.float x) _ => if x.isFinite then .float x else .null
  | .leaf v _ => v
  | .list items => .list (toValues items)
  | .table entries => .table (toEntries entries)

/-- The values of the items of a list. -/
def toValues : List Tree → List Value
  | [] => []
  | t :: rest => toValue t :: toValues rest

/-- The values of the entries of a table. -/
def toEntries : List (String × Tree) → List (String × Value)
  | [] => []
  | (key, t) :: rest => (key, toValue t) :: toEntries rest

end

mutual

/-- A tree put over what was there. The keys of a table go to small letters on all levels; those of
    tables inside lists stay. A table without entries leaves what was there as it is. -/
def merge (old : Option Tree) : Tree → Tree
  | .table incoming => mergeEntries (old.getD empty) incoming
  | t => t

/-- Entries put over a tree one by one; a tree that is no table makes room for them. -/
def mergeEntries (target : Tree) : List (String × Tree) → Tree
  | [] => target
  | (key, t) :: rest =>
    let name := Text.lowerCase key
    let entry := merge (Table.get? target.entries name) t
    mergeEntries (.table (Table.insert name entry target.entries)) rest

end

end Tree

end BootEngine
