import BootEngine.Transaction.Source

/-!
# Direct calls on a source

Transactions that are begun and ended without any scope around them. Each request for a transaction
takes the next slot; a request that is not answered at once is withdrawn and leaves its slot empty.

Contents:
* `Direct`: a source with the transactions in their slots.
* `DirectCall`, `DirectReply`: what can be asked, and what is answered.
* `Direct.call`: one call.
-/

namespace BootEngine.Transaction

/-- A source with the transactions that have been begun on it, by slot. -/
structure Direct where
  source : Source
  slots : List (Option Handle)
  deriving Repr

/-- A call on a source or on a transaction in a slot. -/
inductive DirectCall where
  | begin
  | finish (terminal : Terminal) (slot : Nat)
  | drop (slot : Nat)
  | armCommitFailure
  | name
  deriving Repr

/-- The answer to a call. -/
inductive DirectReply where
  | begun (handle : Handle)
  | waits
  | finished (failure : Option String)
  | done
  | named (name : String)
  | noTransaction
  deriving Repr

namespace Direct

/-- A source on which nothing has been begun. -/
def start (source : Source) : Direct := ⟨source, []⟩

/-- The transaction in a slot. -/
def inSlot? (d : Direct) (slot : Nat) : Option Handle := (d.slots[slot]?).join

/-- Takes the next slot. -/
def push (source : Source) (handle : Option Handle) (d : Direct) : Direct :=
  ⟨source, d.slots ++ [handle]⟩

/-- Asks for a transaction and looks once for the answer. -/
def begin (d : Direct) : DirectReply × Direct :=
  match d.source.begin with
  | (.opened handle, source) => (.begun handle, d.push source (some handle))
  | (.queued ticket, source) => (.waits, d.push (source.withdraw ticket) none)
  | (.answering 0 (.ok handle), source) => (.begun handle, d.push source (some handle))
  | (.answering 0 (.error reason), source) => (.finished (some reason), d.push source none)
  | (.answering _ _, source) => (.waits, d.push source none)

/-- One call. A transaction stays in its slot when it is ended, and leaves it when it is dropped. -/
def call (d : Direct) : DirectCall → DirectReply × Direct
  | .begin => d.begin
  | .finish terminal slot =>
    match d.inSlot? slot with
    | none => (.noTransaction, d)
    | some handle =>
      let ended := d.source.finish terminal handle
      (.finished ended.1.failure, { d with source := ended.2 })
  | .drop slot =>
    match d.inSlot? slot with
    | none => (.noTransaction, d)
    | some handle => (.done, ⟨d.source.letGo handle, d.slots.set slot none⟩)
  | .armCommitFailure => (.done, { d with source := d.source.armCommitFailure })
  | .name => (.named d.source.name, d)

/-- Calls one after another, each with the state of the source after it. -/
def callAll : List DirectCall → Direct → List (DirectReply × Status)
  | [], _ => []
  | c :: rest, d =>
    let answered := d.call c
    (answered.1, answered.2.source.status) :: callAll rest answered.2

end Direct

end BootEngine.Transaction
