import BootEngine.Plan.Order
import BootEngine.Plan.Providers
import BootEngine.Plan.Sorting

/-!
# Resolving dependencies

From descriptions of components to the order in which they are built. If not everything can be put
in order, a cycle is named: from the first item that is left one goes to its first provider that is
left, until an item comes again.

Contents:
* `walk`, `findCycle`: the cycle among the items that are left.
* `resolve`: the plan, or the first fault.
-/

namespace BootEngine.Plan

open Component (Descriptor)

/-- Goes from the last place of a path to its first provider that is left, until a place comes
    again; then the places from its first visit on, with itself at the end, are a cycle. A walk that
    leads nowhere has no cycle. -/
def walk (providers : List (List Nat)) (left : Nat → Bool) :
    Nat → List Nat → Nat → Option (List Nat)
  | 0, _, _ => none
  | fuel + 1, path, current =>
    match (providers[current]?.getD []).find? left with
    | none => none
    | some provider =>
      match path.idxOf? provider with
      | some first => some (path.drop first ++ [provider])
      | none => walk providers left fuel (path ++ [provider]) provider

/-- A cycle among the places that a sorting has left, starting from the least one
    (`TopologicalResolver.find_cycle`). -/
def findCycle (providers : List (List Nat)) (s : Sorting) : Option (List Nat) :=
  match s.left with
  | [] => none
  | start :: _ => walk providers s.isLeft (providers.length + 1) [start] start

/-- The texts of the keys at places. -/
def keyTexts (ds : List Descriptor) (places : List Nat) : List String :=
  places.filterMap fun place => (ds[place]?).map fun (d : Descriptor) => d.key.text

/-- The order in which components are built: providers before those that need them, and apart from
    that the earliest found first (`TopologicalResolver.resolve`). -/
def resolve (ds : List Descriptor) : Except DependencyError Plan :=
  match allProviders ds with
  | .error e => .error e
  | .ok providers =>
    let sorted := Sorting.finish providers
    if sorted.order.length < ds.length then
      .error (.cyclic (keyTexts ds ((findCycle providers sorted).getD [])))
    else .ok ⟨sorted.order⟩

end BootEngine.Plan
