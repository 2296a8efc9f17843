import BootEngine.Transaction.Pool

/-!
# Sources of transactions

Where physical transactions come from: the pooled source, or a source whose every answer is laid
down in advance, with a delay before each answer and a failure for chosen calls.

Contents:
* `Terminal`, `Call`: the calls that end a transaction, and all calls.
* `Scripted`: the source with laid-down answers.
* `Source`: either source, with `begin`, `finish`, `retain`, `letGo` and `status`.
-/

namespace BootEngine.Transaction

/-- The two ways to end a transaction. -/
inductive Terminal where
  | commit
  | rollback
  deriving DecidableEq, Repr, Inhabited

/-- The name of a way to end a transaction. -/
def Terminal.name : Terminal → String
  | commit => "commit"
  | rollback => "rollback"

/-- The calls that a source answers. -/
inductive Call where
  | begin
  | finish (terminal : Terminal)
  deriving DecidableEq, Repr, Inhabited

/-- The name of a call. -/
def Call.name : Call → String
  | begin => "begin"
  | finish terminal => terminal.name

/-- The laid-down answers to the calls of one kind: how long each takes, which of them fail and why,
    and how many have been made. -/
structure Answers where
  delay : Nat
  failures : List (Option String)
  made : Nat
  deriving Repr, Inhabited

/-- The failure of the call that is made next. -/
def Answers.nextFailure (a : Answers) : Option String := (a.failures[a.made]?).join

/-- One more call has been made. -/
def Answers.count (a : Answers) : Answers := { a with made := a.made + 1 }

/-- A source with laid-down answers. -/
structure Scripted where
  name : String
  begins : Answers
  commits : Answers
  rollbacks : Answers
  deriving Repr, Inhabited

namespace Scripted

/-- The answers to a kind of call. -/
def answers (s : Scripted) : Call → Answers
  | .begin => s.begins
  | .finish .commit => s.commits
  | .finish .rollback => s.rollbacks

/-- A call has been made. -/
def count (call : Call) (s : Scripted) : Scripted :=
  match call with
  | .begin => { s with begins := s.begins.count }
  | .finish .commit => { s with commits := s.commits.count }
  | .finish .rollback => { s with rollbacks := s.rollbacks.count }

end Scripted

/-- A source of transactions. -/
inductive Source where
  | pool (p : Pool)
  | scripted (s : Scripted)
  deriving Repr, Inhabited

/-- What a source answers to a request for a transaction: one has begun, the asker stands in line,
    or the answer comes after a delay. -/
inductive Begun where
  | opened (handle : Handle)
  | queued (ticket : Nat)
  | answering (delay : Nat) (answer : Except String Handle)
  deriving Repr

/-- What a source answers to a terminal call: why it fails, if it does, after a delay. -/
structure Ended where
  delay : Nat
  failure : Option String
  deriving Repr

/-- What a source reports of itself. -/
structure Status where
  begins : Nat
  commits : Nat
  rollbacks : Nat
  pool : Option (List Event × Nat)
  deriving Repr

namespace Source

/-- The name of a source. -/
def name : Source → String
  | pool p => p.name
  | scripted s => s.name

/-- The kind of source that the transactions of this one come from. -/
def origin : Source → String
  | pool _ => "memory"
  | scripted _ => "scripted"

/-- Asks for a transaction. -/
def begin : Source → Begun × Source
  | pool p =>
    match p.begin with
    | (.inl handle, p) => (.opened handle, pool p)
    | (.inr ticket, p) => (.queued ticket, pool p)
  | scripted s =>
    let number := s.begins.made + 1
    let answer := match s.begins.nextFailure with
      | some reason => .error reason
      | none => .ok number
    (.answering s.begins.delay answer, scripted (s.count .begin))

/-- Starts a terminal call on a transaction. -/
def finish (terminal : Terminal) (handle : Handle) : Source → Ended × Source
  | pool p =>
    match terminal with
    | .commit => (⟨0, (p.commit handle).1⟩, pool (p.commit handle).2)
    | .rollback => (⟨0, none⟩, pool (p.rollback handle))
  | scripted s =>
    let answers := s.answers (.finish terminal)
    (⟨answers.delay, answers.nextFailure⟩, scripted (s.count (.finish terminal)))

/-- The number that the next call of a kind has at a source with laid-down answers. -/
def nextNumber? (call : Call) : Source → Option Nat
  | pool _ => none
  | scripted s => some ((s.answers call).made + 1)

/-- Applies a change to a pooled source. -/
def onPool (change : Pool → Pool) : Source → Source
  | pool p => pool (change p)
  | scripted s => scripted s

/-- A ticket has been handed a permit. -/
def isGranted (ticket : Nat) : Source → Bool
  | pool p => p.isGranted ticket
  | scripted _ => false

/-- The holder of a granted ticket begins its transaction. -/
def claim (ticket : Nat) : Source → Handle × Source
  | pool p => ((p.claim ticket).1, pool (p.claim ticket).2)
  | scripted s => (0, scripted s)

/-- The holder of a ticket gives up. -/
def withdraw (ticket : Nat) (s : Source) : Source := s.onPool (·.withdraw ticket)

/-- One more holds a transaction. -/
def retain (handle : Handle) (s : Source) : Source := s.onPool (·.retain handle)

/-- One less holds a transaction. -/
def letGo (handle : Handle) (s : Source) : Source := s.onPool (·.letGo handle)

/-- The next commit at a pooled source will fail. -/
def armCommitFailure (s : Source) : Source := s.onPool (·.armCommitFailure)

/-- What a source reports of itself: the calls by kind, and of a pooled source its events and its
    free permits. -/
def status : Source → Status
  | pool p => ⟨p.beginCount, p.commitCount, p.rollbackCount, some (p.events, p.free)⟩
  | scripted s => ⟨s.begins.made, s.commits.made, s.rollbacks.made, none⟩

end Source

end BootEngine.Transaction
