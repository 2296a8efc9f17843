import BootEngine.Work.Journal

/-!
# The world of work

Everything that units of work share or own beside their programs: the clock, the source, the units
with their transaction contexts and cancellations, the rollbacks that run in the background, the
application, and the journal.

Contents:
* `UnitState`: a unit of work.
* `Cleanup`: a rollback in the background.
* `World`: the shared state, and the changes that scopes make to it: asking for a transaction,
  opening its context, entering and leaving nested scopes, ending the work, interrupting it.
-/

namespace BootEngine.Work

open Transaction (Terminal Call Handle Source Context)

/-- A unit of work: the context of its open transaction, and whether it has been cancelled
    (`UnitOfWork`). -/
structure UnitState (H : Host) where
  context : Option (Context (List (Step H)))
  cancelled : Bool

/-- A unit of work that has done nothing yet. -/
def UnitState.idle {H : Host} : UnitState H := ⟨none, false⟩

/-- A rollback in the background: not started yet, or waiting for its answer. -/
inductive Cleanup where
  | fresh (handle : Handle)
  | waiting (handle : Handle) (due : Nat) (failure : Option String)
  deriving Repr

/-- What units of work share. Time is in whole milliseconds; `journal` holds the newest entry
    first; without a runtime nothing can run in the background. -/
structure World (H : Host) where
  now : Nat
  source : Source
  acquireLimit : Option Nat
  units : List (UnitState H)
  names : List (String × UnitId)
  background : List Cleanup
  host : H.State
  hasRuntime : Bool
  journal : List (Entry H)

namespace World

variable {H : Host}

/-- Writes an entry down. -/
def record (entry : Entry H) (w : World H) : World H := { w with journal := entry :: w.journal }

/-- Writes a mark down. -/
def mark (m : Mark H) (w : World H) : World H := w.record (.mark m)

/-- The marks in the journal, newest first. -/
def marks (w : World H) : List (Mark H) := w.journal.filterMap Entry.mark?

/-- Writes down that a source with laid-down answers is called. -/
def recordCall (call : Call) (w : World H) : World H :=
  match w.source.nextNumber? call with
  | some number => w.record (.call call number)
  | none => w

/-! ## Units -/

/-- The state of a unit. -/
def unit (u : UnitId) (w : World H) : UnitState H := w.units[u]?.getD .idle

/-- Changes the state of a unit. A unit that has not been made yet is idle until then. -/
def onUnit (u : UnitId) (change : UnitState H → UnitState H) (w : World H) : World H :=
  { w with units := (w.units ++ .replicate (u + 1 - w.units.length) .idle).modify u change }

/-- The transaction context of a unit. -/
def context? (u : UnitId) (w : World H) : Option (Context (List (Step H))) := (w.unit u).context

/-- Sets the transaction context of a unit. -/
def setContext (u : UnitId) (c : Option (Context (List (Step H)))) (w : World H) : World H :=
  w.onUnit u fun state => { state with context := c }

/-- The unit has been cancelled. -/
def isCancelled (u : UnitId) (w : World H) : Bool := (w.unit u).cancelled

/-- Cancels a unit (`UnitOfWork.cancel`). -/
def cancel (u : UnitId) (w : World H) : World H :=
  (w.mark (.cancelled u)).onUnit u fun state => { state with cancelled := true }

/-- A fresh unit. -/
def addUnit (w : World H) : UnitId × World H :=
  (w.units.length, { w with units := w.units ++ [.idle] })

/-- The unit with a name, made on first use. -/
def named (name : String) (w : World H) : UnitId × World H :=
  match w.names.lookup name with
  | some u => (u, w)
  | none =>
    let added := w.addUnit
    (added.1, { added.2 with names := added.2.names ++ [(name, added.1)] })

/-! ## Handles -/

/-- All holders in a list let go of their transactions. -/
def letGo (handles : List Handle) (w : World H) : World H :=
  { w with source := handles.foldl (fun source handle => source.letGo handle) w.source }

/-! ## Scopes -/

/-- An outermost scope of a unit asks for a transaction. -/
def request (u : UnitId) (w : World H) : Transaction.Begun × World H :=
  let w := (w.mark (.requested u)).recordCall .begin
  let begun := w.source.begin
  (begun.1, { w with source := begun.2 })

/-- A nested scope of a unit begins (`UnitOfWork.with_transaction`). -/
def enterNested (u : UnitId) (c : Context (List (Step H))) (w : World H) : World H :=
  (w.mark (.nestedBegun u c.handle)).setContext u (some c.enter)

/-- A nested scope of a unit ends: if it did not end well, the transaction can only be rolled back;
    in any case the depth goes back (`NestedScope.drop`). Without a context there is nothing to
    restore. -/
def leaveNested (u : UnitId) (handle : Handle) (outcome : Option (Outcome H)) (w : World H) :
    World H :=
  let w := w.mark (.nestedEnded u handle outcome)
  match w.context? u with
  | none => w
  | some c => w.setContext u (some (if endedWell outcome then c else c.markRolledBack).exit)

/-- An outermost scope of a unit has received its transaction: the unit gets a new context, which
    holds the transaction beside the scope itself (`UnitOfWork.run_outermost`). A context that stood
    there lets go of its own. -/
def openContext (u : UnitId) (handle : Handle) (w : World H) : World H :=
  let w := w.mark (.opened u handle)
  let replaced := w.context? u
  let w := { w with source := w.source.retain handle }.setContext u (some (.start handle))
  match replaced with
  | none => w
  | some c => (w.mark (.replaced u c.handle)).letGo [c.handle]

/-- Puts an effect off until the commit of the transaction of a context
    (`UnitOfWork.defer_on_commit`). -/
def deferEffect (u : UnitId) (c : Context (List (Step H))) (effect : List (Step H)) (w : World H) :
    World H :=
  (w.mark (.deferred u c.handle effect)).setContext u (some (c.defer effect))

/-- The work of an outermost scope has ended: the context is taken from its unit
    (`UnitOfWork.run_outermost`). -/
def endWork (u : UnitId) (handle : Handle) (outcome : Outcome H) (w : World H) : World H :=
  (w.mark (.workEnded u handle outcome (w.isCancelled u))).setContext u none

/-- An outermost scope of a unit was cut off before its end: the context is taken away, and its
    transaction is rolled back in the background (`OutermostScope.drop`). Without a runtime it is
    only let go. -/
def interrupt (u : UnitId) (handle : Handle) (w : World H) : World H :=
  let w := w.mark (.interrupted u handle)
  match w.context? u with
  | none => w
  | some c =>
    let w := w.setContext u none
    if w.hasRuntime then
      { w.record (.alert .scopeInterrupted) with background := w.background ++ [.fresh c.handle] }
    else ((w.mark (.lost c.handle)).record (.alert .scopeLost)).letGo [c.handle]

/-- A call that ends a transaction is made. -/
def startFinish (terminal : Terminal) (handle : Handle) (w : World H) :
    Transaction.Ended × World H :=
  let w := (w.mark (.ending terminal handle)).recordCall (.finish terminal)
  let ended := w.source.finish terminal handle
  (ended.1, { w with source := ended.2 })

/-- A call that ends a transaction has been answered. -/
def noteEnded (terminal : Terminal) (handle : Handle) (failure : Option String) (w : World H) :
    World H :=
  w.mark (.ended terminal handle failure)

/-- A rollback has been answered; a failure is only reported (`UnitOfWork.rollback_quietly`). -/
def noteRollback (handle : Handle) (failure : Option String) (w : World H) : World H :=
  let w := w.noteEnded .rollback handle failure
  match failure with
  | none => w
  | some reason => w.record (.alert (.rollbackFailed reason))

end World

end BootEngine.Work
