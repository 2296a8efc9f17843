/-!
# Construction orders

The order in which collected items are built, as a list of their places. An order is only of use for
a list of items if it takes every item exactly once.

Contents:
* `Plan`: an order of places.
* `takeInOrder`: takes items out of their slots, each slot once.
* `Plan.arrange?`: the items in the order of a plan.
-/

namespace BootEngine

/-- Places in the order in which their items are built (`ResolutionPlan`). -/
structure Plan where
  order : List Nat
  deriving DecidableEq, Repr, Inhabited

/-- Takes items out of slots in an order of places; a slot that is empty or not there spoils it. -/
def takeInOrder {α : Type} : List (Option α) → List Nat → Option (List α)
  | _, [] => some []
  | slots, place :: rest =>
    match slots[place]? with
    | some (some item) => (takeInOrder (slots.set place none) rest).map (item :: ·)
    | _ => none

/-- The items in the order of a plan (`ResolutionPlan.arrange`). There is none unless the plan has
    as many places as there are items and every place is taken once. -/
def Plan.arrange? {α : Type} (plan : Plan) (items : List α) : Option (List α) :=
  if plan.order.length = items.length then takeInOrder (items.map some) plan.order else none

end BootEngine
