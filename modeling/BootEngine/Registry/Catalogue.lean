import Mathlib.Data.List.Nodup
import BootEngine.Registry.Query

/-!
# Catalogues

A registry that is kept in two parts: a table of the components under their keys, and a list of the
keys in the order in which they came. A component is looked up by its key in the table; what is
asked for by kind alone goes through the list. Neither part is of use if the other does not go with
it.

Contents:
* `Catalogue`: the two parts, with the data source and the coordinator.
* `Catalogue.insert`: puts a component into both parts.
* `Catalogue.get`, `Catalogue.contains`, `Catalogue.keys`, `Catalogue.all`, `Catalogue.answer`:
  looking up.
-/

namespace BootEngine

open Component (Kind Key Instance)

deriving instance Hashable for Component.Kind, Component.Key

/-- Components in a table under their keys, and the keys in the order in which they came. -/
structure Catalogue where
  table : Std.HashMap Key Instance
  order : List Key
  dataSource : Option String
  coordinator : Option Transaction.Coordinator
  closed : Bool

namespace Catalogue

/-- Puts a component in under a key that is not in use. If it is refused, nothing changes. -/
def insert (c : Catalogue) (key : Key) (item : Instance) :
    Except DependencyError Unit × Catalogue :=
  if c.table.contains key then (.error (.duplicate key.text), c)
  else
    let c := { c with table := c.table.insert key item }
    (.ok (), { c with order := c.order ++ [key] })

/-- The number of components. -/
def size (c : Catalogue) : Nat := c.table.size

/-- Looks a component up by kind and name, or the only one of a kind. -/
def get (c : Catalogue) (kind : Kind) (name : Option String) : Except DependencyError Instance :=
  if c.closed then .error (.notRegistered (Component.requestText kind name))
  else
    match name with
    | some name =>
      match c.table[Key.mk kind name]? with
      | some item => .ok item
      | none => .error (.notRegistered (Key.mk kind name).text)
    | none =>
      match c.order.filter (·.kind == kind) with
      | [] => .error (.notRegistered (Component.requestText kind none))
      | [key] =>
        match c.table[key]? with
        | some item => .ok item
        | none => .error (.notRegistered key.text)
      | keys => .error (.ambiguous kind.name (keys.map (·.name)))

/-- Looks a component up that has to be of a type. -/
def typed (c : Catalogue) (kind : Kind) (name : Option String) (typeName : String) :
    Except DependencyError Instance :=
  match c.get kind name with
  | .error e => .error e
  | .ok item =>
    if item.typeName == typeName then .ok item
    else .error (.typeMismatch (Component.requestText kind name) typeName item.typeName)

/-- A component is there under a key. -/
def contains (c : Catalogue) (key : Key) : Bool := !c.closed && c.table.contains key

/-- The keys in the order in which they came. -/
def keys (c : Catalogue) : List Key := if c.closed then [] else c.order

/-- The components of a kind with their keys, looked up one by one. -/
def all (c : Catalogue) (kind : Kind) : List (Key × Instance) :=
  (c.keys.filter (·.kind == kind)).filterMap fun key =>
    (c.get kind (some key.name)).toOption.map fun item => (key, item)

/-- The answer to a question. -/
def answer (c : Catalogue) : Query → Answer
  | .get kind name =>
    match c.get kind name with
    | .ok item => .found item
    | .error e => .failed e
  | .describe kind name =>
    match c.get kind name with
    | .ok item => .described item.describe
    | .error e => .failed e
  | .typed kind name typeName =>
    match c.typed kind name typeName with
    | .ok item => .typed item
    | .error e => .failed e
  | .all kind => .listed (c.all kind)
  | .contains key => .told (c.contains key)
  | .keys => .keys c.keys
  | .dataSource => .named c.dataSource
  | .coordinator => .named (c.coordinator.map (·.describe))

end Catalogue

end BootEngine
