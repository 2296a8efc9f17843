import BootEngine.Startup.Run
import BootEngine.Startup.Status

/-!
# Applications

What a start-up leaves behind when it has gone well: the registry, the coordinator, the settings and
the report. An application is stopped once; what its components hold is given back then.

Contents:
* `Application`: the application, `Application.shutdown`, `Application.describe`.
* `Executor`: runs a start-up once, `Executor.execute`.
-/

namespace BootEngine.Startup

open Transaction (Coordinator)

/-- An application that has been started. -/
structure Application where
  registry : Registry
  coordinator : Coordinator
  settings : Settings
  report : Report
  status : Status

namespace Application

/-- The application of a run that has gone well. -/
def ofRun (r : Run) (coordinator : Coordinator) : Application :=
  ⟨r.registry, coordinator, r.settings, r.report, .running⟩

/-- Stops an application (`Application.shutdown`). One that does not run any more stays as it is. -/
def shutdown (app : Application) : List Entry × Except StartupError Unit × Application :=
  if app.status = .running then
    let app := { app with status := .stopping }
    let (events, outcome, registry) := app.registry.shutdown app.settings.disposeLimit
    match outcome with
    | .ok _ => (events.map .release, .ok (), { app with registry, status := .stopped })
    | .error e =>
      (events.map .release ++ [.alert (.shutdownIncomplete e.message)], .error e,
        { app with registry, status := .failed })
  else ([], .ok (), app)

/-- The description of an application. -/
def describe (app : Application) : String :=
  Text.openRecord "Application"
    [("registry", app.registry.describe), ("transactions", app.coordinator.describe),
      ("status", app.status.name)]

end Application

/-! ## Executors -/

/-- Runs a start-up once: the inputs are there until they are used (`PhaseExecutor`). -/
structure Executor where
  inputs : Option Inputs
  completed : Bool

namespace Executor

/-- An executor that has not run yet. -/
def ofInputs (inputs : Inputs) : Executor := ⟨some inputs, false⟩

/-- Runs a start-up; a second attempt is refused (`PhaseExecutor.execute`). -/
def execute (x : Executor) : List Entry × Except StartupError Application × Executor :=
  match x.inputs with
  | none => ([.alert .repeatedBootstrap], .error .alreadyBootstrapped, x)
  | some inputs =>
    match Run.launch inputs with
    | (r, .error e) => (r.trace, .error e, ⟨none, false⟩)
    | (r, .ok coordinator) => (r.trace, .ok (.ofRun r coordinator), ⟨none, true⟩)

/-- The description of an executor. -/
def describe (x : Executor) : String :=
  Text.record "PhaseExecutor"
    [("pending", Text.flag x.inputs.isSome), ("completed", Text.flag x.completed)]

end Executor

end BootEngine.Startup
