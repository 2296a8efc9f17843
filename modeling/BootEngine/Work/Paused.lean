import BootEngine.Work.World

/-!
# Suspended computations

A work program in the middle of its run: the frames that it stands in, from the outermost one
inwards, down to what it waits for. Dropping a suspended computation runs the guards of its frames,
the innermost one first.

Contents:
* `Frame`: what is still to be done around an inner computation, with its guard `Frame.unwind`.
* `Paused`: a suspended computation.
* `Paused.isReady`, `Paused.deadlines`: whether it can go on, and when its timers run out.
* `Paused.abandon`: what dropping it does.
-/

namespace BootEngine.Work

open Transaction (Terminal Handle)

/-- What surrounds an inner computation. A program that goes on afterwards is kept with its unit and
    with the value that it has so far. -/
inductive Frame (H : Host) where
  /-- The rest of a program, and how the inner outcome is written down. -/
  | after (unit : UnitId) (report : Report) (value : Value) (rest : List (Step H))
  /-- A nested scope of a unit, with the transaction that it began on. -/
  | nested (unit : UnitId) (handle : Handle)
  /-- The outermost scope of a unit, with its transaction. -/
  | outer (unit : UnitId) (handle : Handle)
  /-- An effect of a committed transaction runs; others are still to come. -/
  | effects (held : List Handle) (unit : UnitId) (handle : Handle) (index : Nat)
      (rest : List (List (Step H))) (value : Value)
  /-- A time limit. -/
  | timeout (unit : UnitId) (due : Nat) (value : Value) (rest : List (Step H))
  /-- Panics end here. -/
  | catchPanic (unit : UnitId) (value : Value) (rest : List (Step H))

/-- A call that ends a transaction, and what follows its answer: the effects and the value of a
    commit, the outcome of a scope that is rolled back, or the rest of a program that made the call
    itself. `held` lists what the caller lets go of at the end. -/
inductive Closing (H : Host) where
  | commit (held : List Handle) (unit : UnitId) (handle : Handle)
      (effects : List (List (Step H))) (value : Value)
  | rollback (held : List Handle) (unit : UnitId) (handle : Handle) (outcome : Outcome H)
  | direct (unit : UnitId) (terminal : Terminal) (handle : Handle) (value : Value)
      (rest : List (Step H))

/-- What the caller lets go of at the end. -/
def Closing.held {H : Host} : Closing H → List Handle
  | .commit held .. => held
  | .rollback held .. => held
  | .direct .. => []

/-- The transaction that the call ends. -/
def Closing.handle {H : Host} : Closing H → Handle
  | .commit _ _ handle .. => handle
  | .rollback _ _ handle _ => handle
  | .direct _ _ handle .. => handle

/-- The way in which the call ends the transaction. -/
def Closing.terminal {H : Host} : Closing H → Terminal
  | .commit .. => .commit
  | .rollback .. => .rollback
  | .direct _ terminal .. => terminal

/-- What an outermost scope waits for before it has a transaction: its turn, or an answer. -/
inductive Acquiring where
  | ticket (number : Nat)
  | answer (due : Nat) (reply : Except String Handle)
  deriving Repr

/-- A branch of programs that run side by side. -/
inductive Branch (H : Host) (P : Type) where
  | idle (steps : List (Step H))
  | paused (p : P)
  | finished

/-- A suspended computation. -/
inductive Paused (H : Host) where
  /-- Sleeps until a time. -/
  | sleeping (due : Nat)
  /-- Goes on when it is looked at again. -/
  | yielded
  /-- An outermost scope waits for its transaction, up to a limit given as a time and a length. -/
  | acquiring (unit : UnitId) (body : List (Step H)) (limit : Option (Nat × Nat))
      (wait : Acquiring)
  /-- A call that ends a transaction is answered at a time. -/
  | closing (due : Nat) (failure : Option String) (call : Closing H)
  /-- An inner computation is suspended. -/
  | under (frame : Frame H) (inner : Paused H)
  /-- Branches run side by side on a unit. -/
  | branches (unit : UnitId) (items : List (Branch H (Paused H)))

/-! ## Guards -/

/-- The guard of a frame runs when the frame is left by a panic or a drop. -/
def Frame.unwind {H : Host} (frame : Frame H) (w : World H) : World H :=
  match frame with
  | .nested u handle => w.leaveNested u handle none
  | .outer u handle => (w.interrupt u handle).letGo [handle]
  | .effects held .. => w.letGo held
  | _ => w

/-- Scopes look at the cancellation of their unit before their work is looked at: a cancelled scope
    cuts its work off (`UnitOfWork.run_cancellable`). -/
def Frame.cutsOff {H : Host} (frame : Frame H) (w : World H) : Bool :=
  match frame with
  | .nested u _ => w.isCancelled u
  | .outer u _ => w.isCancelled u
  | _ => false

/-- What an outermost scope waits for is there. -/
def Acquiring.isReady {H : Host} (wait : Acquiring) (w : World H) : Bool :=
  match wait with
  | .ticket number => w.source.isGranted number
  | .answer due _ => due ≤ w.now

/-- An outermost scope gives up waiting. -/
def Acquiring.withdraw {H : Host} (wait : Acquiring) (w : World H) : World H :=
  match wait with
  | .ticket number => { w with source := w.source.withdraw number }
  | .answer .. => w

/-! ## Dropping -/

mutual

/-- Dropping a suspended computation: what it waits for is given up, then the guards of its frames
    run, the innermost first. Effects that have not started are dropped with it. -/
def Paused.abandon {H : Host} (p : Paused H) (w : World H) : World H :=
  match p with
  | .sleeping _ => w
  | .yielded => w
  | .acquiring u _ _ wait => (wait.withdraw w).mark (.withdrawn u)
  | .closing _ _ call => (w.mark (.callDropped call.handle)).letGo call.held
  | .under frame inner => frame.unwind (inner.abandon w)
  | .branches _ items => Paused.abandonAll items w

/-- Dropping branches, in their order. -/
def Paused.abandonAll {H : Host} (items : List (Branch H (Paused H))) (w : World H) : World H :=
  match items with
  | [] => w
  | .paused p :: rest => Paused.abandonAll rest (p.abandon w)
  | .idle _ :: rest => Paused.abandonAll rest w
  | .finished :: rest => Paused.abandonAll rest w

end

/-! ## Waiting -/

mutual

/-- Something in a suspended computation can go on now. -/
def Paused.isReady {H : Host} (p : Paused H) (w : World H) : Bool :=
  match p with
  | .sleeping due => due ≤ w.now
  | .yielded => true
  | .acquiring u _ limit wait =>
    w.isCancelled u || wait.isReady w || limit.any fun (due, _) => due ≤ w.now
  | .closing due _ _ => due ≤ w.now
  | .under frame inner =>
    frame.cutsOff w ||
      (match frame with
        | .timeout _ due _ _ => due ≤ w.now
        | _ => false) ||
      inner.isReady w
  | .branches _ items => Paused.anyReady items w

/-- Some branch can go on now. -/
def Paused.anyReady {H : Host} (items : List (Branch H (Paused H))) (w : World H) : Bool :=
  match items with
  | [] => false
  | .paused p :: rest => p.isReady w || Paused.anyReady rest w
  | .idle _ :: _ => true
  | .finished :: rest => Paused.anyReady rest w

end

mutual

/-- The times at which the timers of a suspended computation run out. -/
def Paused.deadlines {H : Host} (p : Paused H) : List Nat :=
  match p with
  | .sleeping due => [due]
  | .yielded => []
  | .acquiring _ _ limit wait =>
    (limit.map Prod.fst).toList ++
      (match wait with
        | .ticket _ => []
        | .answer due _ => [due])
  | .closing due _ _ => [due]
  | .under frame inner =>
    (match frame with
      | .timeout _ due _ _ => [due]
      | _ => []) ++ inner.deadlines
  | .branches _ items => Paused.allDeadlines items

/-- The times at which the timers of branches run out. -/
def Paused.allDeadlines {H : Host} (items : List (Branch H (Paused H))) : List Nat :=
  match items with
  | [] => []
  | .paused p :: rest => p.deadlines ++ Paused.allDeadlines rest
  | .idle _ :: rest => Paused.allDeadlines rest
  | .finished :: rest => Paused.allDeadlines rest

end

end BootEngine.Work
