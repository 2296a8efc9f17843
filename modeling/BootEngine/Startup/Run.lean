import BootEngine.Startup.Inputs
import BootEngine.Startup.Report
import BootEngine.Startup.Trace
import BootEngine.Startup.Validation

/-!
# The run of a start-up

Seven phases, one after another, over one state. A phase is cut off right after its first call that
fails. Then what has been registered so far is released, and the failure of the phase is the failure
of the run, whatever the release does.

Contents:
* `Run`: the state of a run.
* `configure`, `registerCore`, `registerFeatures`, `registerComponents`, `registerRoutes`,
  `notifyFeatures`, `checkRegistered`: what the phases do.
* `runPhase`, `runPhases`, `Run.launch`: phases with their listeners, and whole runs.
-/

namespace BootEngine.Startup

open Component (Key Origin)
open Transaction (Coordinator)

/-- The state of a run (`BootstrapState`). `pending` holds what has been collected and not been
    built, and `web` what waits for the web layer to be built. -/
structure Run where
  inputs : Inputs
  roots : List String
  settings : Settings
  registry : Registry
  coordinator : Option Coordinator
  active : List Feature
  pending : List Registration
  web : List Registration
  report : Report
  trace : List Entry

/-- How a part of a run ends: the state after it, and its failure, if there is one. -/
abbrev Outcome := Run × Option StartupError

namespace Run

/-- The state before the first phase. -/
def start (inputs : Inputs) : Run where
  inputs := inputs
  roots := inputs.roots
  settings := .standard
  registry := .empty
  coordinator := none
  active := []
  pending := []
  web := []
  report := .start inputs.stopwatch.startedAt
  trace := []

/-- Adds entries to the trace. -/
def note (entries : List Entry) (r : Run) : Run := { r with trace := r.trace ++ entries }

/-- Goes on if nothing has failed. -/
def next (o : Outcome) (rest : Run → Outcome) : Outcome :=
  match o.2 with
  | some e => (o.1, some e)
  | none => rest o.1

/-- Does something for each item of a list, up to the first failure. -/
def each {α : Type} (act : α → Run → Outcome) : List α → Run → Outcome
  | [], r => (r, none)
  | a :: rest, r => next (act a r) (each act rest)

end Run

open Run (next each)

/-! ## Configuration -/

/-- Adds a root that is not listed yet. -/
def addRoot (roots : List String) (root : String) : List String :=
  if roots.contains root then roots else roots ++ [root]

/-- Reads the settings, and adds the roots that they name (`materialize_configuration`). -/
def configure (r : Run) : Outcome :=
  match Settings.load r.inputs.config with
  | .error e => (r, some (.settings e))
  | .ok settings => ({ r with settings, roots := settings.roots.foldl addRoot r.roots }, none)

/-! ## Core infrastructure -/

/-- Makes the coordinator of the data source, and registers both
    (`register_core_infrastructure`). -/
def registerCore (r : Run) : Outcome :=
  match r.inputs.source with
  | none => (r, some (.phaseFailed Phase.coreInfrastructure.text "未提供数据源"))
  | some source =>
    let coordinator : Coordinator := ⟨source.name, r.settings.acquireLimit⟩
    ({ r with
        coordinator := some coordinator
        registry := { r.registry with
          dataSource := some source.name, coordinator := some coordinator } }, none)

/-! ## Features -/

/-- Collects the registration of a definition that a feature provides. -/
def collect (id : String) (d : Definition) (r : Run) : Outcome :=
  match d.register (.feature id) with
  | .error e => (r, some (.discovery e))
  | .ok registration => ({ r with pending := r.pending ++ [registration] }, none)

/-- Asks a feature for its components, unless it is left out. -/
def registerFeature (f : Feature) (r : Run) : Outcome :=
  if r.settings.isDisabled f.id then (r, none)
  else
    next (each (collect f.id) f.provides (r.note [.provide f.id f.quiet])) fun r =>
      ({ r with active := r.active ++ [f] }, none)

/-- Goes through features whose identifiers must not repeat; a feature that is left out counts for
    that as well. -/
def registerFrom (seen : List String) : List Feature → Run → Outcome
  | [], r => (r, none)
  | f :: rest, r =>
    if seen.contains f.id then (r, some (.featureFailed f.id "特性ID重复"))
    else next (registerFeature f r) (registerFrom (f.id :: seen) rest)

/-- Asks the features for their components (`register_features`). -/
def registerFeatures (r : Run) : Outcome := registerFrom [] r.inputs.features r

/-! ## Components -/

/-- Builds a component with its factory, and registers it (`PhaseExecutor.instantiate`). -/
def instantiate (phase : Phase) (registration : Registration) (r : Run) : Outcome :=
  let d := registration.descriptor
  let key := d.key
  let made := registration.factory ⟨d, r.registry, r.settings.component? key.name⟩
  let r := r.note (.create key :: made.1.map fun found => .found key found.1 found.2)
  match made.2 with
  | .error e => (r, some (.dependency e))
  | .ok item =>
    let r := r.note [.built key item]
    match r.registry.insert key item with
    | .error e => (r, some (.dependency e))
    | .ok registry =>
      ({ r with
          registry
          report := { r.report with
            components := r.report.components ++ [⟨key, d.typeName, phase⟩] } }, none)

/-- Collects what a scanner finds below the roots. -/
def scanWith (s : Scanner) (r : Run) : Outcome :=
  let found := s.scan r.roots
  let r := r.note (.scan s.name r.roots s.quiet :: found.1.map .alert)
  match found.2 with
  | .error e => (r, some (.discovery e))
  | .ok registrations => ({ r with pending := r.pending ++ registrations }, none)

/-- Sets a web component aside, and builds any other one. -/
def buildOrSetAside (registration : Registration) (r : Run) : Outcome :=
  if registration.descriptor.kind.isWeb then ({ r with web := r.web ++ [registration] }, none)
  else instantiate .componentRegistration registration r

/-- The failure for a plan that does not take every component exactly once. -/
def misplanned (count planned : Nat) : StartupError :=
  .phaseFailed Phase.componentRegistration.text
    ("解析顺序与组件不一致: 共 " ++ toString count ++ " 个组件，顺序包含 " ++ toString planned ++
      " 项")

/-- Orders what has been collected, and builds it outside the web layer. -/
def buildAll (r : Run) : Outcome :=
  let descriptors := r.pending.map (·.descriptor)
  let r := r.note [.resolve descriptors r.inputs.resolver.quiet]
  match r.inputs.resolver.resolve descriptors with
  | .error e => (r, some (.dependency e))
  | .ok plan =>
    match plan.arrange? r.pending with
    | none => ({ r with pending := [] }, some (misplanned descriptors.length plan.order.length))
    | some ordered => each buildOrSetAside ordered { r with pending := [] }

/-- Scans, orders and builds (`register_components`). -/
def registerComponents (r : Run) : Outcome := next (each scanWith r.inputs.scanners r) buildAll

/-! ## Routes -/

/-- Hands a component that has been registered to the binder. -/
def bindRoute (binder : Binder) (key : Key) (r : Run) : Outcome :=
  match r.registry.get key.kind (some key.name) with
  | .error e => (r, some (.dependency e))
  | .ok item =>
    let r := r.note [.bind key item]
    match binder key item with
    | .ok () => (r, none)
    | .error reason =>
      (r, some (.phaseFailed Phase.routeRegistration.text
        ("绑定路由 " ++ key.text ++ " 失败: " ++ reason)))

/-- Builds a web component, and binds it if there is a binder. -/
def registerRoute (registration : Registration) (r : Run) : Outcome :=
  next (instantiate .routeRegistration registration r) fun r =>
    match r.inputs.binder with
    | none => (r, none)
    | some binder => bindRoute binder registration.descriptor.key r

/-- Builds and binds the web components (`register_routes`). -/
def registerRoutes (r : Run) : Outcome := each registerRoute r.web { r with web := [] }

/-! ## The end -/

/-- Tells a feature that everything is ready. -/
def notify (f : Feature) (r : Run) : Outcome :=
  let told := f.ready r.registry
  let r := r.note (.ready f.id f.quiet :: told.1.map (.asked f.id))
  match told.2 with
  | .error e => (r, some (.featureFailed f.id e.message))
  | .ok () =>
    ({ r with report := { r.report with
        featuresReady := r.report.featuresReady ++ [f.id] } }, none)

/-- Tells all features that everything is ready (`notify_features`). -/
def notifyFeatures (r : Run) : Outcome := each notify r.active r

/-- Looks for every component that is reported (`PhaseExecutor.validate`). -/
def checkRegistered (r : Run) : Outcome :=
  let checked := validate r.registry r.report.components
  let r := r.note (checked.1.map .alert)
  match checked.2 with
  | .error e => (r, some e)
  | .ok _ => (r, none)

/-! ## Phases -/

/-- What a phase does. -/
def Phase.body : Phase → Run → Outcome
  | .configuration => configure
  | .coreInfrastructure => registerCore
  | .featureRegistration => registerFeatures
  | .componentRegistration => registerComponents
  | .routeRegistration => registerRoutes
  | .featureReady => notifyFeatures
  | .validation => checkRegistered

/-- Releases what has been registered; a failure to do so is only reported (`release_partial`). -/
def releaseRegistered (r : Run) : Run :=
  if r.registry.isEmpty then r
  else
    let (events, outcome, registry) := r.registry.shutdown r.settings.disposeLimit
    let r := { r with registry }.note (events.map .release)
    match outcome with
    | .ok _ => r
    | .error e => r.note [.alert (.releaseFailed e.message)]

/-- A phase with its listeners (`run_phase`). -/
def runPhase (phase : Phase) (r : Run) : Outcome :=
  let r := r.note (r.inputs.listeners.map fun listener => .phaseStarted listener phase)
  match phase.body r with
  | (r, some e) =>
    (releaseRegistered (r.note [.alert (.phaseFailed phase.text e.message)]), some e)
  | (r, none) =>
    let timing : Timing := ⟨phase, r.inputs.stopwatch.phaseTime phase⟩
    let r := { r with report := { r.report with phases := r.report.phases ++ [timing] } }
    (r.note (r.inputs.listeners.map fun listener => .phaseCompleted listener phase), none)

/-- Phases one after another, up to the first that fails. -/
def runPhases (phases : List Phase) (r : Run) : Outcome := each runPhase phases r

/-- A whole run: the state after it, and the coordinator of what has been started. -/
def Run.launch (inputs : Inputs) : Run × Except StartupError Coordinator :=
  match runPhases Phase.all (.start inputs) with
  | (r, some e) => (r, .error e)
  | (r, none) =>
    match r.coordinator with
    | none => (r, .error (.phaseFailed Phase.coreInfrastructure.text "事务协调器未注册"))
    | some coordinator =>
      ({ r with report := { r.report with completedAt := some inputs.stopwatch.completedAt } },
        .ok coordinator)

end BootEngine.Startup
