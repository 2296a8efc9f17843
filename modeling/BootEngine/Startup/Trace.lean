import BootEngine.Alert
import BootEngine.Construction.Factory
import BootEngine.Registry.Query
import BootEngine.Registry.Release
import BootEngine.Startup.Phase

/-!
# The trace of a start-up

Every call that a start-up makes to what has been handed to it, in order, with what the called note
and with the alerts. A collaborator that is quiet leaves its calls out of what is shown.

Contents:
* `Entry`: an entry of the trace.
* `Entry.isShown`: the entries that are shown.
* `Entry.alert?`: the alert of an entry.
-/

namespace BootEngine.Startup

open Component (Key Instance Descriptor)

/-- An entry of a trace. -/
inductive Entry where
  | phaseStarted (listener : String) (phase : Phase)
  | phaseCompleted (listener : String) (phase : Phase)
  | provide (feature : String) (quiet : Bool)
  | scan (scanner : String) (roots : List String) (quiet : Bool)
  | resolve (descriptors : List Descriptor) (quiet : Bool)
  /-- The factory of a component is called. -/
  | create (key : Key)
  /-- A factory has come by something. -/
  | found (key : Key) (step : String) (finding : Finding)
  /-- Marks that a factory has returned an instance. -/
  | built (key : Key) (item : Instance)
  | bind (key : Key) (item : Instance)
  | ready (feature : String) (quiet : Bool)
  /-- A feature has asked something when everything was ready. -/
  | asked (feature : String) (answer : Answer)
  | release (event : ReleaseEvent)
  | alert (a : Alert)

/-- The entries that are shown. -/
def Entry.isShown : Entry → Bool
  | .provide _ quiet => !quiet
  | .scan _ _ quiet => !quiet
  | .resolve _ quiet => !quiet
  | .built .. => false
  | .ready _ quiet => !quiet
  | .release (.waited _) => false
  | _ => true

/-- The alert of an entry, if it is one. -/
def Entry.alert? : Entry → Option Alert
  | .alert a => some a
  | .release (.alert a) => some a
  | _ => none

end BootEngine.Startup
