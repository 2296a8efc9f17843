import BootEngine.Text.Record
import BootEngine.Time.Span

/-!
# Coordinators

The service that opens transaction scopes, as far as it can be seen from outside: the source that
its transactions come from, and how long a scope waits for one.

Contents:
* `Coordinator`: the source's name and the limit, `Coordinator.describe`.
-/

namespace BootEngine.Transaction

/-- Opens scopes on a source; a limit is in milliseconds (`TransactionCoordinator`). -/
structure Coordinator where
  sourceName : String
  acquireLimit : Option Nat
  deriving DecidableEq, Repr, Inhabited

/-- The description of a coordinator. -/
def Coordinator.describe (c : Coordinator) : String :=
  Text.record "TransactionCoordinator"
    [("data_source", Text.quote c.sourceName),
      ("acquire_timeout",
        Text.optional (c.acquireLimit.map fun ms => (Time.Span.ofMillis ms).render))]

end BootEngine.Transaction
