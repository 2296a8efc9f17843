import BootEngine.Component.Instance
import BootEngine.Component.Key
import BootEngine.Failure
import BootEngine.Transaction.Coordinator

/-!
# The registry

Where built components are found again: by key, or by kind if only one component has it. Components
stay in the order in which they were put in. A registry that has been closed finds nothing.

Contents:
* `Registry`: components with their keys, the data source and the coordinator.
* `Registry.insert`: puts a component in.
* `Registry.get`, `Registry.typed`, `Registry.contains`, `Registry.keys`, `Registry.all`: looking
  up.
-/

namespace BootEngine

open Component (Kind Key Instance)

/-- Built components in the order in which they were put in, with the data source and the
    coordinator that they may use (`InMemoryComponentRegistry`). -/
structure Registry where
  entries : List (Key × Instance)
  dataSource : Option String
  coordinator : Option Transaction.Coordinator
  closed : Bool
  deriving DecidableEq, Repr, Inhabited

namespace Registry

/-- A registry without components. -/
def empty : Registry := ⟨[], none, none, false⟩

/-- The component under a key, whether the registry is closed or not. -/
def find? (r : Registry) (key : Key) : Option Instance := r.entries.lookup key

/-- Puts a component in under a key that is not in use (`InMemoryComponentRegistry.insert`). -/
def insert (key : Key) (item : Instance) (r : Registry) : Except DependencyError Registry :=
  match r.find? key with
  | some _ => .error (.duplicate key.text)
  | none => .ok { r with entries := r.entries ++ [(key, item)] }

/-- The number of components. -/
def size (r : Registry) : Nat := r.entries.length

/-- The registry has no components. -/
def isEmpty (r : Registry) : Bool := r.entries.isEmpty

/-- The components of a kind. -/
def ofKind (r : Registry) (kind : Kind) : List (Key × Instance) :=
  r.entries.filter fun entry => entry.1.kind == kind

/-- Looks a component up by kind and name, or the only one of a kind (`ComponentLookup.get`). -/
def get (r : Registry) (kind : Kind) (name : Option String) : Except DependencyError Instance :=
  if r.closed then .error (.notRegistered (Component.requestText kind name))
  else
    match name with
    | some name =>
      match r.find? ⟨kind, name⟩ with
      | some item => .ok item
      | none => .error (.notRegistered (Key.mk kind name).text)
    | none =>
      match r.ofKind kind with
      | [] => .error (.notRegistered (Component.requestText kind none))
      | [entry] => .ok entry.2
      | entries => .error (.ambiguous kind.name (entries.map fun entry => entry.1.name))

/-- Looks a component up that has to be of a type (`ComponentLookupExt.get_typed`). -/
def typed (r : Registry) (kind : Kind) (name : Option String) (typeName : String) :
    Except DependencyError Instance :=
  match r.get kind name with
  | .error e => .error e
  | .ok item =>
    if item.typeName == typeName then .ok item
    else .error (.typeMismatch (Component.requestText kind name) typeName item.typeName)

/-- A component is there under a key (`ComponentLookup.contains`). -/
def contains (r : Registry) (key : Key) : Bool := !r.closed && (r.find? key).isSome

/-- The keys in the order in which they were put in (`ComponentLookup.keys`). -/
def keys (r : Registry) : List Key := if r.closed then [] else r.entries.map Prod.fst

/-- The components of a kind with their keys, looked up one by one
    (`ComponentLookupExt.get_all`). -/
def all (r : Registry) (kind : Kind) : List (Key × Instance) :=
  (r.keys.filter (·.kind == kind)).filterMap fun key =>
    (r.get kind (some key.name)).toOption.map fun item => (key, item)

/-- The description of a registry; the keys are listed even if it is closed. -/
def describe (r : Registry) : String :=
  Text.record "InMemoryComponentRegistry"
    [("components", Text.listing (r.entries.map fun entry => entry.1.describe)),
      ("data_source", Text.optional (r.dataSource.map Text.quote)),
      ("transactions", Text.flag r.coordinator.isSome), ("closed", Text.flag r.closed)]

end Registry

end BootEngine
