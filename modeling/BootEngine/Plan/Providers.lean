import BootEngine.Component.Descriptor
import BootEngine.Failure

/-!
# Providers

Which component of a list satisfies each need of another one. A named need is satisfied by the
component with that key, an open one by the only component of its kind; a component may not provide
for itself, and components outside the web layer may not need those inside it.

Contents:
* `firstRepeated?`: the first key that has occurred before.
* `providerOf`: the place of the component that satisfies a need.
* `checkNeed`, `providersOf`: the places that a component depends on.
* `allProviders`: those of every component, or the first fault of the list.
-/

namespace BootEngine.Plan

open Component (Key Need Descriptor)

/-- The first key in a list that has occurred before, given the keys before the list. -/
def firstRepeated? : List Key → List Key → Option Key
  | _, [] => none
  | seen, key :: rest => if seen.contains key then some key else firstRepeated? (key :: seen) rest

/-- The places of the components of a kind. -/
def placesOfKind (ds : List Descriptor) (kind : Component.Kind) : List Nat :=
  (List.range ds.length).filter fun place => (ds[place]?.map (·.kind)) == some kind

/-- The registered names of the components of a kind. -/
def namesOfKind (ds : List Descriptor) (kind : Component.Kind) : List String :=
  (ds.filter (·.kind == kind)).map (·.registeredName)

/-- The place of the component that satisfies a need of `requester`
    (`TopologicalResolver.find_provider`). -/
def providerOf (ds : List Descriptor) (requester : Descriptor) (need : Need) :
    Except DependencyError Nat :=
  match need.name with
  | some name =>
    match ds.findIdx? (·.key == ⟨need.kind, name⟩) with
    | some place => .ok place
    | none => .error (.unresolved requester.key.text need.text)
  | none =>
    match placesOfKind ds need.kind with
    | [] => .error (.unresolved requester.key.text need.text)
    | [place] => .ok place
    | _ => .error (.ambiguous need.kind.name (namesOfKind ds need.kind))

/-- The place that satisfies one need of the component at `place`: the inner loop of
    `TopologicalResolver.build_edges`. The direction of the need is looked at before its
    provider. -/
def checkNeed (ds : List Descriptor) (place : Nat) (d : Descriptor) (need : Need) :
    Except DependencyError Nat :=
  if need.kind.isWeb && !d.kind.isWeb then .error (.wrongDirection d.key.text need.text)
  else
    match providerOf ds d need with
    | .error e => .error e
    | .ok provider =>
      if provider = place then .error (.cyclic [d.key.text, d.key.text]) else .ok provider

/-- Adds a place that is not yet listed. -/
def addPlace (places : List Nat) (place : Nat) : List Nat :=
  if places.contains place then places else places ++ [place]

/-- The distinct places that satisfy the needs of the component at `place`, in the order of the
    needs, added to those already found. -/
def collectNeeds (ds : List Descriptor) (place : Nat) (d : Descriptor) :
    List Nat → List Need → Except DependencyError (List Nat)
  | found, [] => .ok found
  | found, need :: rest =>
    match checkNeed ds place d need with
    | .error e => .error e
    | .ok provider => collectNeeds ds place d (addPlace found provider) rest

/-- The distinct places that the component at `place` depends on. -/
def providersOf (ds : List Descriptor) (place : Nat) (d : Descriptor) :
    Except DependencyError (List Nat) :=
  collectNeeds ds place d [] d.needs

/-- The providers of the components from `place` on. -/
def providersFrom (ds : List Descriptor) :
    Nat → List Descriptor → Except DependencyError (List (List Nat))
  | _, [] => .ok []
  | place, d :: rest =>
    match providersOf ds place d with
    | .error e => .error e
    | .ok providers =>
      match providersFrom ds (place + 1) rest with
      | .error e => .error e
      | .ok others => .ok (providers :: others)

/-- The providers of every component (`TopologicalResolver.build_edges`). Keys that occur twice are
    refused first; after that the first fault in the order of components and needs counts. -/
def allProviders (ds : List Descriptor) : Except DependencyError (List (List Nat)) :=
  match firstRepeated? [] (ds.map (·.key)) with
  | some key => .error (.duplicate key.text)
  | none => providersFrom ds 0 ds

end BootEngine.Plan
