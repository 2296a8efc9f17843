import BootEngine.Discovery.Manifest
import BootEngine.Plan.Resolve
import BootEngine.Registry.Query

/-!
# Collaborators

What a start-up works with: features, scanners, a resolver and a binder. All of them are functions,
so that a start-up can be run with any behaviour of theirs; those that are quiet leave no entries of
their own in what is shown.

Contents:
* `Feature`: components to add, and what to do when everything is ready; `ReadyStep`.
* `Scanner`: finds components below roots.
* `Resolver`: orders components.
* `Binder`: binds web components to routes.
-/

namespace BootEngine.Startup

open Component (Key Instance Descriptor)

/-! ## Features -/

/-- An optional part of an application. `ready` is called when all components have been built; it
    gives the answers that it got from the registry, and why it fails, if it does. -/
structure Feature where
  id : String
  provides : List Definition
  ready : Registry → List Answer × Except FeatureError Unit
  quiet : Bool

/-- A step of a feature when everything is ready: a question to the registry, or a failure. -/
inductive ReadyStep where
  | ask (query : Query)
  | fail (message : String)
  deriving Repr

/-- Goes through steps up to the first failure. -/
def ReadyStep.run (r : Registry) : List ReadyStep → List Answer × Except FeatureError Unit
  | [] => ([], .ok ())
  | .fail message :: _ => ([], .error ⟨message⟩)
  | .ask query :: rest =>
    let others := run r rest
    (r.answer query :: others.1, others.2)

namespace Feature

/-- A feature that adds nothing and does nothing. -/
def bare (id : String) : Feature := ⟨id, [], fun _ => ([], .ok ()), true⟩

/-- A feature with steps for when everything is ready. -/
def withSteps (id : String) (provides : List Definition) (steps : List ReadyStep) : Feature :=
  ⟨id, provides, fun r => ReadyStep.run r steps, false⟩

end Feature

/-! ## Scanners -/

/-- Finds components below roots. -/
structure Scanner where
  name : String
  scan : List String → List Alert × Except DiscoveryError (List Registration)
  quiet : Bool

namespace Scanner

/-- The scanner of manifests. -/
def ofManifests (manifests : List Manifest) : Scanner :=
  ⟨"manifest", fun roots => scanManifests roots manifests, true⟩

/-- A scanner of manifests with a name, which may keep to roots of its own. -/
def named (name : String) (manifests : List Manifest) (ownRoots : Option (List String)) : Scanner :=
  ⟨name, fun roots => scanManifests (ownRoots.getD roots) manifests, false⟩

/-- A scanner that fails. -/
def failing (name reason : String) : Scanner := ⟨name, fun _ => ([], .error ⟨name, reason⟩), false⟩

end Scanner

/-! ## Resolvers -/

/-- Orders components. -/
structure Resolver where
  resolve : List Descriptor → Except DependencyError Plan
  quiet : Bool

namespace Resolver

/-- The resolver that goes by the needs of the components. -/
def byNeeds : Resolver := ⟨Plan.resolve, true⟩

/-- The same order, seen from outside. -/
def observed : Resolver := ⟨Plan.resolve, false⟩

/-- An order that is laid down in advance. -/
def fixed (order : List Nat) : Resolver := ⟨fun _ => .ok ⟨order⟩, false⟩

/-- The order by needs, back to front. -/
def reversed : Resolver :=
  ⟨fun ds => (Plan.resolve ds).map fun plan => ⟨plan.order.reverse⟩, false⟩

/-- A resolver that misses something. -/
def missing (requester need : String) : Resolver :=
  ⟨fun _ => .error (.unresolved requester need), false⟩

end Resolver

/-! ## Binders -/

/-- Binds web components to routes; a failure is a message. -/
abbrev Binder := Key → Instance → Except String Unit

/-- A binder that has no route for components with certain names. -/
def Binder.without (names : List String) : Binder := fun key _ =>
  if names.contains key.name then .error ("no route for " ++ key.name) else .ok ()

end BootEngine.Startup
