/-!
# Sorting by dependence

Items are put in order one by one. An item is ready when all of its providers stand in the order; of
the items that are ready the one with the least place is next.

Contents:
* `Sorting`: the order so far, the open providers of every item, the items that are ready.
* `Sorting.start`, `Sorting.next`, `Sorting.run`: the sorting.
* `Sorting.isLeft`: an item that cannot be put in order.
-/

namespace BootEngine.Plan

/-- A sorting under way. `pending` counts for every place the providers that are not in the order
    yet, and `ready` holds the places that can go next, in increasing order. -/
structure Sorting where
  order : List Nat
  pending : List Nat
  ready : List Nat
  deriving DecidableEq, Repr, Inhabited

/-- Adds a place to places in increasing order, which it may already be among. -/
def insertPlace (place : Nat) : List Nat → List Nat
  | [] => [place]
  | first :: rest =>
    if place < first then place :: first :: rest
    else if place = first then first :: rest
    else first :: insertPlace place rest

/-- The places that have `provider` among their providers, in increasing order. -/
def dependants (providers : List (List Nat)) (provider : Nat) : List Nat :=
  (List.range providers.length).filter fun place =>
    (providers[place]?.getD []).contains provider

namespace Sorting

/-- Before anything is put in order: the items without providers are ready. -/
def start (providers : List (List Nat)) : Sorting where
  order := []
  pending := providers.map List.length
  ready := (List.range providers.length).filter fun place =>
    (providers[place]?.map List.length) == some 0

/-- One provider of the item at a place has been put in order. -/
def satisfy (s : Sorting) (place : Nat) : Sorting :=
  let pending := s.pending.modify place (· - 1)
  if pending[place]? = some 0 then { s with pending, ready := insertPlace place s.ready }
  else { s with pending }

/-- Puts the first ready item in order. -/
def next (providers : List (List Nat)) (s : Sorting) : Sorting :=
  match s.ready with
  | [] => s
  | place :: ready =>
    (dependants providers place).foldl satisfy { s with order := s.order ++ [place], ready }

/-- Puts up to a number of items in order: the main loop of `TopologicalResolver.resolve`. -/
def run (providers : List (List Nat)) : Nat → Sorting → Sorting
  | 0, s => s
  | count + 1, s => run providers count (next providers s)

/-- The end of a sorting: as many rounds as there are items. -/
def finish (providers : List (List Nat)) : Sorting :=
  run providers providers.length (start providers)

/-- The item at a place waits for providers that are not in the order. -/
def isLeft (s : Sorting) (place : Nat) : Bool := (s.pending[place]?.getD 0) > 0

/-- The places of the items that wait. -/
def left (s : Sorting) : List Nat := (List.range s.pending.length).filter s.isLeft

end Sorting

end BootEngine.Plan
