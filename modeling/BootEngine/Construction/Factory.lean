import BootEngine.Registry.Injection

/-!
# Factories

How a component is built: a function of what it sees. On the way a factory may note what it has come
by.

Contents:
* `Finding`: what a factory has come by.
* `Factory`: the way to build a component.
-/

namespace BootEngine

open Component (Instance Descriptor)

/-- The settings of a component that works on a table. -/
structure TableOptions where
  table : String
  limit : Option Nat
  deriving DecidableEq, Repr, Inhabited

/-- What a factory has come by. -/
inductive Finding where
  | text (s : String)
  | settings (v : Option Value)
  | options (o : Option TableOptions)
  | description (d : Descriptor)
  | attempt (outcome : Except DependencyError Finding)

/-- A way to build a component; it notes what it comes by under the names of its steps. -/
abbrev Factory := Injection → List (String × Finding) × Except DependencyError Instance

end BootEngine
