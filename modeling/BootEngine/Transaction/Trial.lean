import BootEngine.Transaction.Source
import BootEngine.Value

/-!
# Trials of a context

A transaction context on its own, driven call by call over a transaction that has been begun for it.

Contents:
* `NotedEffect`: an effect that is only noted, and may fail.
* `TrialStep`, `TrialReply`, `TrialEvent`: the calls, their answers, and what is noted.
* `Trial.step`, `Trial.run`: one call, and a whole trial.
-/

namespace BootEngine.Transaction

/-- An effect that is noted by its name when it runs, and may fail. -/
structure NotedEffect where
  id : Value
  failure : Option String
  deriving Repr

/-- A call on a context. -/
inductive TrialStep where
  | enter
  | exit
  | mark
  | defer (effect : NotedEffect)
  | take
  | physical
  | finish (terminal : Terminal)
  | describe
  deriving Repr

/-- What a call answers beside the state of the context. -/
inductive TrialReply where
  | nothing
  | ran (failures : List (Option String))
  | physical (origin : String) (handle : Handle)
  | finished (failure : Option String)
  | described (text : String)
  deriving Repr

/-- What is noted during a trial. -/
inductive TrialEvent where
  | effect (id : Value)
  | call (call : Call) (number : Nat)
  deriving Repr

/-- A context over its source. -/
structure Trial where
  source : Source
  context : Context NotedEffect

/-- The note of a call that is made next, if the source tells its calls. -/
def callNote (source : Source) (call : Call) : List TrialEvent :=
  match source.nextNumber? call with
  | some number => [.call call number]
  | none => []

namespace Trial

/-- One call: what is noted, what is answered, and the state after it. Effects that are taken run at
    once, in their order; a failure of one does not keep the others from running. -/
def step (t : Trial) : TrialStep → List TrialEvent × TrialReply × Trial
  | .enter => ([], .nothing, { t with context := t.context.enter })
  | .exit => ([], .nothing, { t with context := t.context.exit })
  | .mark => ([], .nothing, { t with context := t.context.markRolledBack })
  | .defer effect => ([], .nothing, { t with context := t.context.defer effect })
  | .take =>
    let taken := t.context.takeEffects
    (taken.1.map fun effect => .effect effect.id, .ran (taken.1.map (·.failure)),
      { t with context := taken.2 })
  | .physical => ([], .physical t.source.origin t.context.handle, t)
  | .finish terminal =>
    let ended := t.source.finish terminal t.context.handle
    (callNote t.source (.finish terminal), .finished ended.1.failure,
      { t with source := ended.2 })
  | .describe => ([], .described t.context.describe, t)

/-- The answer to a call: the state of the context after it, and what it answers beside. -/
structure Answer where
  depth : Nat
  effects : Nat
  rolledBack : Bool
  reply : TrialReply
  deriving Repr

/-- Calls one after another. -/
def steps : List TrialStep → Trial → List TrialEvent × List Answer
  | [], _ => ([], [])
  | s :: rest, t =>
    let (events, reply, t) := t.step s
    let others := steps rest t
    (events ++ others.1,
      ⟨t.context.depth, t.context.effects.length, t.context.rolledBack, reply⟩ :: others.2)

/-- A whole trial: a transaction is begun, which may fail, and the calls are made. A source that has
    no transaction to give never answers. -/
def run (source : Source) (calls : List TrialStep) :
    List TrialEvent × Except String (List Answer) :=
  let note := callNote source .begin
  match source.begin with
  | (.opened handle, source) =>
    let ran := steps calls ⟨source, .start handle⟩
    (note ++ ran.1, .ok ran.2)
  | (.answering _ (.ok handle), source) =>
    let ran := steps calls ⟨source, .start handle⟩
    (note ++ ran.1, .ok ran.2)
  | (.answering _ (.error reason), _) => (note, .error reason)
  | (.queued _, _) => (note, .ok [])

end Trial

end BootEngine.Transaction
