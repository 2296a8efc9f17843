import BootEngine.Startup.Application
import BootEngine.Startup.Logging

/-!
# Builders

Collects, part by part, what a start-up works with.

Contents:
* `Builder`: the parts, `Builder.empty`, and one function for each part.
* `Builder.describe`: the description of a builder.
* `Builder.executor`: the executor of what has been collected.
-/

namespace BootEngine.Startup

open Transaction (Source)

/-- The parts of an application that has not been started (`ApplicationBuilder`). -/
structure Builder where
  roots : List String
  manifests : List Manifest
  scanners : List Scanner
  features : List Feature
  source : Option Source
  config : List ConfigSource
  binder : Option Binder
  resolver : Resolver
  listeners : List String
  logging : Option LoggingConfig

namespace Builder

/-- A builder without parts. -/
def empty : Builder := ⟨[], [], [], [], none, [], none, .byNeeds, [], none⟩

/-- Adds a root to scan below; a root that is there already is not added again. -/
def scanRoot (root : String) (b : Builder) : Builder := { b with roots := addRoot b.roots root }

/-- Adds a manifest. -/
def addManifest (m : Manifest) (b : Builder) : Builder := { b with manifests := b.manifests ++ [m] }

/-- Adds a scanner. -/
def addScanner (s : Scanner) (b : Builder) : Builder := { b with scanners := b.scanners ++ [s] }

/-- Adds a feature. -/
def addFeature (f : Feature) (b : Builder) : Builder := { b with features := b.features ++ [f] }

/-- Sets the source of transactions. -/
def withSource (source : Source) (b : Builder) : Builder := { b with source := some source }

/-- Adds a source of settings. -/
def addConfig (source : ConfigSource) (b : Builder) : Builder :=
  { b with config := b.config ++ [source] }

/-- Adds a document from a file, given its path and its text; a file that is not there is refused at
    once. -/
def addFile (path : String) (text : Option String) (b : Builder) : Except StartupError Builder :=
  match text with
  | some text => .ok (b.addConfig (.ofToml text))
  | none => .error (.settings (.unreadable ("配置文件不存在: " ++ path)))

/-- Sets the binder. -/
def withBinder (binder : Binder) (b : Builder) : Builder := { b with binder := some binder }

/-- Sets the resolver. -/
def withResolver (resolver : Resolver) (b : Builder) : Builder := { b with resolver }

/-- Adds a listener. -/
def addListener (listener : String) (b : Builder) : Builder :=
  { b with listeners := b.listeners ++ [listener] }

/-- Sets how the log is written. -/
def withLogging (config : LoggingConfig) (b : Builder) : Builder :=
  { b with logging := some config }

/-- The description of a builder. -/
def describe (b : Builder) : String :=
  Text.openRecord "ApplicationBuilder"
    [("namespaces", Text.listing (b.roots.map Text.quote)),
      ("manifests", toString b.manifests.length), ("scanners", toString b.scanners.length),
      ("features", toString b.features.length),
      ("has_data_source", Text.flag b.source.isSome),
      ("has_route_binder", Text.flag b.binder.isSome)]

/-- The scanners of a builder: that of its manifests, if there are any, then the others. -/
def allScanners (b : Builder) : List Scanner :=
  if b.manifests.isEmpty then b.scanners else .ofManifests b.manifests :: b.scanners

/-- The executor of what has been collected (`ApplicationBuilder.into_executor`). If it was asked
    for, the log is put into force first; `inForce` tells whether another one is. -/
def executor (inForce : Bool) (stopwatch : Stopwatch) (b : Builder) :
    Except StartupError Executor :=
  let inputs : Inputs :=
    ⟨b.roots, b.allScanners, b.resolver, b.features, b.source, b.config, b.binder, b.listeners,
      stopwatch⟩
  match b.logging with
  | none => .ok (.ofInputs inputs)
  | some config =>
    match config.install inForce with
    | .error e => .error e
    | .ok () => .ok (.ofInputs inputs)

end Builder

end BootEngine.Startup
