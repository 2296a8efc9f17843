import BootEngine.Component.Key
import BootEngine.Startup.Phase
import BootEngine.Time.Moment

/-!
# Reports

What a start-up has done: the components that were registered, in the order in which they were
built, the phases with the time that each took, and the features that were told that everything is
ready.

Contents:
* `Registered`, `Timing`: an entry for a component, an entry for a phase.
* `Report`: the report, `Report.totalElapsed`, `Report.componentsIn`.
-/

namespace BootEngine.Startup

open Component (Key)
open Time (Span Moment)

/-- A component that was registered (`RegisteredComponent`). -/
structure Registered where
  key : Key
  typeName : String
  phase : Phase
  deriving DecidableEq, Repr, Inhabited

/-- The description of a registered component. -/
def Registered.describe (r : Registered) : String :=
  Text.record "RegisteredComponent"
    [("key", r.key.describe), ("type_name", Text.quote r.typeName), ("phase", r.phase.name)]

/-- The time that a phase took. -/
structure Timing where
  phase : Phase
  elapsed : Span
  deriving DecidableEq, Repr, Inhabited

/-- The description of a timing. -/
def Timing.describe (t : Timing) : String :=
  Text.record "PhaseTiming" [("phase", t.phase.name), ("elapsed", t.elapsed.render)]

/-- What a start-up has done (`BootstrapReport`). -/
structure Report where
  startedAt : Moment
  completedAt : Option Moment
  phases : List Timing
  components : List Registered
  featuresReady : List String
  deriving DecidableEq, Repr, Inhabited

namespace Report

/-- A report before the first phase. -/
def start (startedAt : Moment) : Report := ⟨startedAt, none, [], [], []⟩

/-- The time of all phases together. -/
def totalElapsed (r : Report) : Span := Span.total (r.phases.map (·.elapsed))

/-- The components that were registered in a phase. -/
def componentsIn (r : Report) (phase : Phase) : List Registered :=
  r.components.filter (·.phase == phase)

end Report

end BootEngine.Startup
