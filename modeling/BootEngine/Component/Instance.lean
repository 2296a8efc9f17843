import BootEngine.Text.Record

/-!
# Instances

A component that has been built: the full name of its type, a label to tell it from others, and, if
it holds something that has to be given back, how it does that.

Contents:
* `Disposer`: how an instance gives back what it holds.
* `Instance`: the instance, `Instance.describe`.
-/

namespace BootEngine.Component

/-- How an instance gives back what it holds: the milliseconds that it rests for, if it rests at
    all, and why it fails, if it does. -/
structure Disposer where
  delay : Option Nat
  failure : Option String
  deriving DecidableEq, Repr, Inhabited

/-- A component that has been built (`ComponentInstance`). -/
structure Instance where
  typeName : String
  label : String
  disposer : Option Disposer
  deriving DecidableEq, Repr, Inhabited

namespace Instance

/-- The instance has something to give back. -/
def isDisposable (i : Instance) : Bool := i.disposer.isSome

/-- The description of an instance. -/
def describe (i : Instance) : String :=
  Text.record "ComponentInstance"
    [("type_name", Text.quote i.typeName), ("disposable", Text.flag i.isDisposable)]

end Instance

end BootEngine.Component
