import BootEngine.Component.Descriptor
import BootEngine.Reading.Strict
import BootEngine.Registry.Basic

/-!
# Injection

What a component sees while it is built: its own description, its section of the configuration, the
data source and the coordinator, and of the other components only those that it has declared to
need.

Contents:
* `Injection`: the view.
* `Injection.resolve`, `Injection.resolveAny`: the components that are needed.
* `Injection.dataSource`, `Injection.coordinator`, `Injection.options`: the rest.
-/

namespace BootEngine

open Component (Kind Key Instance Descriptor)

/-- What a component sees while it is built (`InjectionContext`). -/
structure Injection where
  descriptor : Descriptor
  registry : Registry
  settings? : Option Value

namespace Injection

/-- The failure for a request that was not declared. -/
def undeclared (i : Injection) (kind : Kind) (name : Option String) : DependencyError :=
  .undeclared i.descriptor.key.text (Component.requestText kind name)

/-- A needed component by its name (`InjectionContext.resolve`). Some declared need has to
    admit it. -/
def resolve (i : Injection) (kind : Kind) (name typeName : String) :
    Except DependencyError Instance :=
  if i.descriptor.needs.any (·.admits ⟨kind, name⟩) then i.registry.typed kind (some name) typeName
  else .error (i.undeclared kind (some name))

/-- The needed component of a kind: the one that the first declared need of that kind asks for
    (`InjectionContext.resolve_any`). -/
def resolveAny (i : Injection) (kind : Kind) (typeName : String) :
    Except DependencyError Instance :=
  match i.descriptor.needs.find? (·.kind == kind) with
  | some need => i.registry.typed kind need.name typeName
  | none => .error (i.undeclared kind none)

/-- The name of the data source (`InjectionContext.data_source`). -/
def dataSource (i : Injection) : Except DependencyError String :=
  match i.registry.dataSource with
  | some name => .ok name
  | none => .error (.unavailable "DataSource")

/-- The coordinator (`InjectionContext.transactions`). -/
def coordinator (i : Injection) : Except DependencyError Transaction.Coordinator :=
  match i.registry.coordinator with
  | some c => .ok c
  | none => .error (.unavailable "TransactionCoordinator")

/-- The section of the configuration, if there is one, read in some way
    (`InjectionContext.component_config`). -/
def options {α : Type} (i : Injection) (read : Reading.Reader α) :
    Except DependencyError (Option α) :=
  match i.settings? with
  | none => .ok none
  | some v =>
    match read v with
    | .ok a => .ok (some a)
    | .error reason => .error (.creationFailed i.descriptor.typeName reason)

end Injection

end BootEngine
