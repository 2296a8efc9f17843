import BootEngine.Settings.Sources
import BootEngine.Startup.Collaborators
import BootEngine.Startup.Phase
import BootEngine.Time.Moment
import BootEngine.Transaction.Source

/-!
# Inputs of a start-up

Everything that has been handed to a start-up before it runs.

Contents:
* `Stopwatch`: the readings of the clock during a run.
* `Inputs`: the inputs.
-/

namespace BootEngine.Startup

open Time (Moment Span)
open Transaction (Source)

/-- The readings of the clock during a run: when it starts, how long each phase takes, and when it
    ends. -/
structure Stopwatch where
  startedAt : Moment
  phaseTime : Phase → Span
  completedAt : Moment

/-- Readings of a clock that stands still. -/
def Stopwatch.still : Stopwatch := ⟨⟨0, 0, 0⟩, fun _ => .zero, ⟨0, 0, 0⟩⟩

/-- What has been handed to a start-up. -/
structure Inputs where
  roots : List String
  scanners : List Scanner
  resolver : Resolver
  features : List Feature
  source : Option Source
  config : List ConfigSource
  binder : Option Binder
  listeners : List String
  stopwatch : Stopwatch

end BootEngine.Startup
