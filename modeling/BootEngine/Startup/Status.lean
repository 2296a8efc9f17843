/-!
# The status of an application

Contents:
* `Status`: running, stopping, stopped, or failed to stop.
-/

namespace BootEngine.Startup

/-- Whether an application runs (`ApplicationStatus`). -/
inductive Status where
  | running
  | stopping
  | stopped
  | failed
  deriving DecidableEq, Repr, Inhabited

namespace Status

/-- All statuses. -/
def all : List Status := [running, stopping, stopped, failed]

/-- The name of a status. -/
def name : Status → String
  | running => "Running"
  | stopping => "Stopping"
  | stopped => "Stopped"
  | failed => "Failed"

/-- The status with a given name. -/
def ofName? (s : String) : Option Status := all.find? (·.name == s)

@[simp] theorem ofName?_name (s : Status) : ofName? s.name = some s := by cases s <;> decide

end Status

end BootEngine.Startup
