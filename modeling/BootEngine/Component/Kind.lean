/-!
# Kinds of components

What a component is there for. The kinds are ordered as they are listed; two of them belong to the
web layer, and one is provided by features only, never found by a scan.

Contents:
* `Kind`: the kinds, `Kind.all`, `Kind.name`, `Kind.index`.
* `Kind.isScannable`, `Kind.isWeb`: the two classes that start-up tells apart.
-/

namespace BootEngine.Component

/-- The purpose of a component (`CapabilityKind`). -/
inductive Kind where
  | service
  | repository
  | validator
  | eventHandler
  | httpHandler
  | routeModule
  | initializer
  deriving DecidableEq, Repr, Inhabited

namespace Kind

/-- All kinds, in their order. -/
def all : List Kind :=
  [service, repository, validator, eventHandler, httpHandler, routeModule, initializer]

/-- The name of a kind. -/
def name : Kind → String
  | service => "Service"
  | repository => "Repository"
  | validator => "Validator"
  | eventHandler => "EventHandler"
  | httpHandler => "HttpHandler"
  | routeModule => "RouteModule"
  | initializer => "Initializer"

/-- The place of a kind in the order. -/
def index (k : Kind) : Nat := all.idxOf k

/-- The kind with a given name. -/
def ofName? (s : String) : Option Kind := all.find? (·.name == s)

/-- Components of this kind may be found by scanning a manifest. -/
def isScannable (k : Kind) : Bool := k != initializer

/-- Components of this kind belong to the web layer: they are built last and bound to routes. -/
def isWeb (k : Kind) : Bool := k == httpHandler || k == routeModule

@[simp] theorem mem_all (k : Kind) : k ∈ all := by cases k <;> decide

@[simp] theorem ofName?_name (k : Kind) : ofName? k.name = some k := by cases k <;> decide

end Kind

end BootEngine.Component
