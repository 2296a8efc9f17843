import BootEngine.Transaction.Context

/-!
# The pooled source

A source of transactions that lives in memory and lends a fixed number of permits. A transaction
holds a permit from its begin until it is committed, rolled back or let go by all who hold it. Who
finds no free permit waits in line; a permit that comes back goes to the first in line, before
anybody else can take it.

Every change of a pool is one step. All that `begin`, `commit` and `rollback` do after a permit has
been had (the number, the event, the permit that comes back) is done by one thread without a point
at which it could be suspended, so what other callers see are the pools before and after. The one
such point of a begin lies before its permit: there the asker holds a ticket, and `claim` is the
rest of its begin.

Contents:
* `Event`: what the source records, in order.
* `Lease`: a transaction that has begun, with its holders and its permit.
* `Pool`: the source, with `begin`, `claim`, `withdraw`, `commit`, `rollback`, `retain`, `letGo`.
-/

namespace BootEngine.Transaction

/-- What happened to a transaction (`TransactionEvent`). -/
inductive Event where
  | begin (id : Handle)
  | commit (id : Handle)
  | rollback (id : Handle)
  deriving DecidableEq, Repr, Inhabited

/-- The text of an event. -/
def Event.text : Event → String
  | begin id => "begin " ++ toString id
  | commit id => "commit " ++ toString id
  | rollback id => "rollback " ++ toString id

/-- A transaction that has begun: how many hold it, and whether its permit is still out
    (`InMemoryTransaction`). -/
structure Lease where
  id : Handle
  holders : Nat
  hasPermit : Bool
  deriving DecidableEq, Repr, Inhabited

/-- The pooled source (`InMemoryDataSource`). `waiting` and `granted` hold the tickets of those in
    line and of those who were handed a permit and have not come for it yet. -/
structure Pool where
  name : String
  free : Nat
  waiting : List Nat
  granted : List Nat
  nextTicket : Nat
  nextId : Handle
  leases : List Lease
  events : List Event
  commitFailureArmed : Bool
  deriving Repr, Inhabited

namespace Pool

/-- A source with a number of permits (`InMemoryDataSource.new`). -/
def ofSize (name : String) (size : Nat) : Pool := ⟨name, size, [], [], 0, 1, [], [], false⟩

/-- Records an event. -/
def record (event : Event) (p : Pool) : Pool := { p with events := p.events ++ [event] }

/-- A permit comes back: it goes to the first in line, or is free. -/
def giveBack (p : Pool) : Pool :=
  match p.waiting with
  | [] => { p with free := p.free + 1 }
  | ticket :: rest => { p with waiting := rest, granted := p.granted ++ [ticket] }

/-- Begins a transaction with a permit that has already been taken. -/
def openLease (p : Pool) : Handle × Pool :=
  (p.nextId,
    { p with nextId := p.nextId + 1, leases := p.leases ++ [⟨p.nextId, 1, true⟩],
             events := p.events ++ [.begin p.nextId] })

/-- Asks for a transaction: it begins at once if a permit is free, else the asker gets a ticket
    (`InMemoryDataSource.begin`). -/
def begin (p : Pool) : (Handle ⊕ Nat) × Pool :=
  if p.free > 0 then
    let opened := { p with free := p.free - 1 }.openLease
    (.inl opened.1, opened.2)
  else (.inr p.nextTicket, { p with nextTicket := p.nextTicket + 1,
                                    waiting := p.waiting ++ [p.nextTicket] })

/-- A ticket has been handed a permit. -/
def isGranted (p : Pool) (ticket : Nat) : Bool := p.granted.contains ticket

/-- The holder of a granted ticket begins its transaction (`InMemoryDataSource.begin`). -/
def claim (ticket : Nat) (p : Pool) : Handle × Pool :=
  { p with granted := p.granted.erase ticket }.openLease

/-- The holder of a ticket gives up: it leaves the line, and a permit it was handed goes on. -/
def withdraw (ticket : Nat) (p : Pool) : Pool :=
  if p.isGranted ticket then { p with granted := p.granted.erase ticket }.giveBack
  else { p with waiting := p.waiting.erase ticket }

/-- Changes the lease of a transaction. -/
def onLease (id : Handle) (change : Lease → Lease) (p : Pool) : Pool :=
  { p with leases := p.leases.map fun (lease : Lease) =>
      if lease.id == id then change lease else lease }

/-- The permit of a transaction comes back if it is still out (`InMemoryTransaction.release`). -/
def release (id : Handle) (p : Pool) : Pool :=
  if p.leases.any fun (lease : Lease) => lease.id == id && lease.hasPermit then
    (p.onLease id fun lease => { lease with hasPermit := false }).giveBack
  else p

/-- One more holds a transaction. -/
def retain (id : Handle) (p : Pool) : Pool :=
  p.onLease id fun lease => { lease with holders := lease.holders + 1 }

/-- One less holds a transaction; the last one to let go gives its permit back. -/
def letGo (id : Handle) (p : Pool) : Pool :=
  let fewer := p.onLease id fun lease => { lease with holders := lease.holders - 1 }
  if fewer.leases.any fun (lease : Lease) => lease.id == id && lease.holders == 0 then
    fewer.release id
  else fewer

/-- Commits a transaction (`InMemoryTransaction.commit`). If a failure is armed, the transaction is
    rolled back and the reason of the failure is given. -/
def commit (id : Handle) (p : Pool) : Option String × Pool :=
  let released := p.release id
  if released.commitFailureArmed then
    (some ("事务 " ++ toString id ++ " 提交失败"),
      { released with commitFailureArmed := false }.record (.rollback id))
  else (none, released.record (.commit id))

/-- Rolls a transaction back (`InMemoryTransaction.rollback`). -/
def rollback (id : Handle) (p : Pool) : Pool := (p.release id).record (.rollback id)

/-- The next commit will fail (`InMemoryDataSource.fail_next_commit`). -/
def armCommitFailure (p : Pool) : Pool := { p with commitFailureArmed := true }

/-- The number of recorded begins. -/
def beginCount (p : Pool) : Nat :=
  p.events.countP fun | .begin _ => true | _ => false

/-- The number of recorded commits. -/
def commitCount (p : Pool) : Nat :=
  p.events.countP fun | .commit _ => true | _ => false

/-- The number of recorded rollbacks. -/
def rollbackCount (p : Pool) : Nat :=
  p.events.countP fun | .rollback _ => true | _ => false

end Pool

end BootEngine.Transaction
