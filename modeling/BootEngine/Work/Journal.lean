import BootEngine.Alert
import BootEngine.Work.Step

/-!
# The journal of work

What is written down while work programs run, in order: what their steps note, how their scopes,
branches and units end, the calls that reach the source, and the alerts. Some entries are marks:
they tell what becomes of scopes and transactions, and are not part of what is shown.

Contents:
* `Mark`, `endedWell`: what becomes of scopes and transactions.
* `Entry`: an entry.
* `Entry.isShown`, `Entry.mark?`: the entries that are shown, and the marks.
* `Entry.alert?`: the alert of an entry.
-/

namespace BootEngine.Work

open Transaction (Terminal Call Handle Status)

/-- Units of work are numbered in the order in which they are made. -/
abbrev UnitId := Nat

/-- What becomes of the scopes of a unit and of their transactions. A missing outcome was replaced
    by a panic or a drop. -/
inductive Mark (H : Host) where
  /-- The unit is cancelled. -/
  | cancelled (unit : UnitId)
  /-- A scope is refused because its unit has been cancelled. -/
  | refused (unit : UnitId)
  /-- An outermost scope asks for a transaction. -/
  | requested (unit : UnitId)
  /-- An outermost scope has ended without a transaction. -/
  | unserved (unit : UnitId) (error : TransactionError)
  /-- An outermost scope that waits for a transaction is dropped. -/
  | withdrawn (unit : UnitId)
  /-- An outermost scope has received its transaction. -/
  | opened (unit : UnitId) (handle : Handle)
  /-- The context of a transaction is overwritten by the one of another. -/
  | replaced (unit : UnitId) (handle : Handle)
  /-- A nested scope begins on a transaction. -/
  | nestedBegun (unit : UnitId) (handle : Handle)
  /-- A nested scope that began on a transaction has ended. -/
  | nestedEnded (unit : UnitId) (handle : Handle) (outcome : Option (Outcome H))
  /-- An effect is put off until the commit of a transaction. -/
  | deferred (unit : UnitId) (handle : Handle) (effect : List (Step H))
  /-- The work of an outermost scope has ended, and whether its unit has been cancelled by then. -/
  | workEnded (unit : UnitId) (handle : Handle) (outcome : Outcome H) (cancelled : Bool)
  /-- The work of an outermost scope has ended, and its context is gone. -/
  | strayed (unit : UnitId) (handle : Handle)
  /-- The work of an outermost scope is cut off by a panic or a drop. -/
  | interrupted (unit : UnitId) (handle : Handle)
  /-- A transaction is given up because nothing can run in the background. -/
  | lost (handle : Handle)
  /-- A program ends the transaction of its unit itself. -/
  | direct (unit : UnitId) (handle : Handle)
  /-- A call that ends a transaction is made. -/
  | ending (terminal : Terminal) (handle : Handle)
  /-- Such a call has been answered. -/
  | ended (terminal : Terminal) (handle : Handle) (failure : Option String)
  /-- Such a call is dropped before its answer. -/
  | callDropped (handle : Handle)
  /-- An effect of a committed transaction starts. -/
  | effectStarted (unit : UnitId) (handle : Handle) (index : Nat) (effect : List (Step H))
  /-- An outermost scope that had a transaction has ended. -/
  | returned (unit : UnitId) (handle : Handle) (outcome : Outcome H)

/-- A scope has ended well: neither by a failure nor by a panic or a drop. -/
def endedWell {H : Host} : Option (Outcome H) → Bool
  | some (.ok _) => true
  | _ => false

/-- An entry of the journal. An outcome that is missing was replaced by a panic or a drop. -/
inductive Entry (H : Host) where
  | note (value : Value)
  | effect (id : Value)
  | state (active : Bool) (depth : Option Nat) (rolledBack : Bool)
  | describe (text : String)
  | transaction (found : Option (String × Handle))
  | token (cancelled : Bool)
  | source (status : Status)
  | scope (outcome : Outcome H)
  | coordinator (outcome : Outcome H)
  | unit (name : String) (outcome : Outcome H)
  | branch (index : Nat) (outcome : Outcome H)
  | timeout (outcome : Option (Outcome H))
  | catchPanic (outcome : Option (Outcome H))
  | deferFailed (error : TransactionError)
  | finished (terminal : Terminal) (failure : Option String)
  | call (call : Call) (number : Nat)
  | alert (a : Alert)
  | mark (m : Mark H)

/-- The mark of an entry, if it is one. -/
def Entry.mark? {H : Host} : Entry H → Option (Mark H)
  | .mark m => some m
  | _ => none

/-- The entries that are shown; marks are not. -/
def Entry.isShown {H : Host} (entry : Entry H) : Bool := entry.mark?.isNone

/-- The alert of an entry, if it is one. -/
def Entry.alert? {H : Host} : Entry H → Option Alert
  | .alert a => some a
  | _ => none

end BootEngine.Work
