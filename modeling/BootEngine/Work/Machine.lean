import BootEngine.Work.Paused

/-!
# Running work, step by step

One computation at a time is in focus: it is being looked at again, it executes steps, it has ended,
it unwinds after a panic, or it has been suspended. Around it stand layers, innermost first: the
frames of programs and scopes, and joins with their other branches. A step of the machine acts on
the focus and the layer next to it only, so what a run keeps follows from what a step keeps.

A scope looks at the cancellation of its unit each time before its work is looked at, outermost
scope first. A time limit is looked at after the computation inside it, and only if that is
suspended. A join looks at its unfinished branches in their order.

A computation runs on its thread from one point at which it can be suspended to the next, with
nothing else in between: another branch has its turn only after a `Focus.pause` or an end (`visit`),
and the clock and the background move only while the whole run is at rest. So what stands between
two such points is one step here: `enterScope` looks at the cancellation and at the context and
enters it, `openScope` stores a new context, `closeScope` takes the context and makes the call that
ends the transaction, and none of them has a point of suspension inside.

A definition names the function that it models in brackets, such as `UnitOfWork.acquire`.

Contents:
* `Layer`, `Focus`, `Machine`: the states of a run.
* `enterScope`, `tryAcquire`, `openScope`: how a transaction scope begins.
* `closeScope`, `settle`, `nextEffect`: how an outermost scope ends.
* `execStep`, `resume`, `Machine.step`: one step of a run.
-/

namespace BootEngine.Work

open Transaction (Terminal Handle Context)

/-- What stands around the focus: a frame, or a join with the branches looked at so far, newest
    first, and those still to be looked at. -/
inductive Layer (H : Host) where
  | frame (f : Frame H)
  | joining (unit : UnitId) (done todo : List (Branch H (Paused H)))

/-- The computation that is being looked at. -/
inductive Focus (H : Host) where
  /-- A suspended computation is looked at again. -/
  | enter (p : Paused H)
  /-- A program runs on a unit, with the value that it has so far. -/
  | exec (unit : UnitId) (value : Value) (steps : List (Step H))
  /-- A computation has ended. -/
  | finish (outcome : Outcome H)
  /-- A computation has panicked. -/
  | unwind
  /-- A computation is suspended. -/
  | pause (p : Paused H)

/-- A state of a run. -/
structure Machine (H : Host) where
  world : World H
  layers : List (Layer H)
  focus : Focus H

variable {H : Host}

/-- The run ends with a failure of its transaction. -/
def failWith (w : World H) (layers : List (Layer H)) (e : TransactionError) : Machine H :=
  ⟨w, layers, .finish (.error (.transaction e))⟩

/-! ## Ending an outermost scope -/

/-- An outermost scope that had a transaction ends. -/
def returnFrom (w : World H) (layers : List (Layer H)) (u : UnitId) (handle : Handle)
    (outcome : Outcome H) : Machine H :=
  ⟨w.mark (.returned u handle outcome), layers, .finish outcome⟩

/-- Starts the next effect of a committed transaction; after the last one the scope ends with its
    value (`UnitOfWork.run_outermost`). -/
def nextEffect (w : World H) (layers : List (Layer H)) (held : List Handle) (u : UnitId)
    (handle : Handle) (index : Nat) (effects : List (List (Step H))) (value : Value) : Machine H :=
  match effects with
  | [] => returnFrom (w.letGo held) layers u handle (.ok value)
  | effect :: rest =>
    ⟨w.mark (.effectStarted u handle index effect),
      .frame (.effects held u handle index rest value) :: layers, .exec u .null effect⟩

/-- A call that ends a transaction has been answered (`UnitOfWork.run_outermost`). After a commit
    the effects run; a commit that failed is the failure of the scope; a rollback changes nothing in
    the outcome of the scope. -/
def settle (w : World H) (layers : List (Layer H)) (failure : Option String) :
    Closing H → Machine H
  | .commit held u handle effects value =>
    let w := w.noteEnded .commit handle failure
    match failure with
    | none => nextEffect w layers held u handle 0 effects value
    | some reason =>
      returnFrom (w.letGo held) layers u handle (.error (.transaction (.commitFailed reason)))
  | .rollback held u handle outcome =>
    returnFrom ((w.noteRollback handle failure).letGo held) layers u handle outcome
  | .direct u terminal handle value rest =>
    ⟨(w.noteEnded terminal handle failure).record (.finished terminal failure), layers,
      .exec u value rest⟩

/-- Makes a call that ends a transaction; it is answered at once or after a delay
    (`UnitOfWork.run_outermost`). -/
def startClosing (w : World H) (layers : List (Layer H)) (call : Closing H) : Machine H :=
  let started := w.startFinish call.terminal call.handle
  if started.1.delay = 0 then settle started.2 layers started.1.failure call
  else ⟨started.2, layers, .pause (.closing (w.now + started.1.delay) started.1.failure call)⟩

/-- The work of an outermost scope has ended (`UnitOfWork.run_outermost`). The context is taken from
    the unit; if it is gone, the scope fails and its transaction is let go. Work that ended well is
    committed, unless the unit has been cancelled or a nested scope has failed; everything else is
    rolled back. -/
def closeScope (w : World H) (layers : List (Layer H)) (u : UnitId) (handle : Handle)
    (outcome : Outcome H) : Machine H :=
  match w.context? u with
  | none =>
    returnFrom ((w.mark (.strayed u handle)).letGo [handle]) layers u handle
      (.error (.transaction .noActiveTransaction))
  | some c =>
    let cancelled := w.isCancelled u
    let w := w.endWork u handle outcome
    let held := [handle, c.handle]
    match outcome with
    | .ok value =>
      if cancelled then
        startClosing w layers (.rollback held u handle (.error (.transaction .cancelled)))
      else if c.rolledBack then
        startClosing (w.record (.alert .nestedScopeFailed)) layers
          (.rollback held u handle (.error (.transaction .rollbackOnly)))
      else startClosing w layers (.commit held u handle c.effects value)
    | .error e => startClosing w layers (.rollback held u handle (.error e))

/-! ## Beginning a scope -/

/-- An outermost scope ends without a transaction. -/
def failUnserved (w : World H) (layers : List (Layer H)) (u : UnitId) (e : TransactionError) :
    Machine H :=
  failWith (w.mark (.unserved u e)) layers e

/-- An outermost scope has its transaction: its work begins (`UnitOfWork.run_outermost`). -/
def openScope (w : World H) (layers : List (Layer H)) (u : UnitId) (handle : Handle)
    (body : List (Step H)) : Machine H :=
  ⟨w.openContext u handle, .frame (.outer u handle) :: layers, .exec u .null body⟩

/-- An outermost scope has an answer to its request for a transaction (`UnitOfWork.acquire`). -/
def answerAcquire (w : World H) (layers : List (Layer H)) (u : UnitId) (body : List (Step H)) :
    Except String Handle → Machine H
  | .ok handle => openScope w layers u handle body
  | .error reason => failUnserved w layers u (.beginFailed reason)

/-- An outermost scope looks for its transaction: it takes what is there, or gives up when its limit
    is over, or waits on (`UnitOfWork.acquire`). -/
def tryAcquire (w : World H) (layers : List (Layer H)) (u : UnitId) (body : List (Step H))
    (limit : Option (Nat × Nat)) (wait : Acquiring) : Machine H :=
  if wait.isReady w then
    match wait with
    | .ticket number =>
      let claimed := w.source.claim number
      openScope { w with source := claimed.2 } layers u claimed.1 body
    | .answer _ reply => answerAcquire w layers u body reply
  else
    match limit with
    | some (due, ms) =>
      if due ≤ w.now then failUnserved (wait.withdraw w) layers u (.acquireTimeout ms)
      else ⟨w, layers, .pause (.acquiring u body limit wait)⟩
    | none => ⟨w, layers, .pause (.acquiring u body limit wait)⟩

/-- An outermost scope asks for a transaction (`UnitOfWork.acquire`). -/
def beginOutermost (w : World H) (layers : List (Layer H)) (u : UnitId) (body : List (Step H)) :
    Machine H :=
  let limit := w.acquireLimit.map fun ms => (w.now + ms, ms)
  let asked := w.request u
  let w := asked.2
  match asked.1 with
  | .opened handle => openScope w layers u handle body
  | .queued number => tryAcquire w layers u body limit (.ticket number)
  | .answering delay reply => tryAcquire w layers u body limit (.answer (w.now + delay) reply)

/-- A transaction scope begins: it is refused if the unit has been cancelled, nested if the unit has
    a transaction, and the outermost one else (`UnitOfWork.with_transaction`). -/
def enterScope (w : World H) (layers : List (Layer H)) (u : UnitId) (body : List (Step H)) :
    Machine H :=
  if w.isCancelled u then failWith (w.mark (.refused u)) layers .cancelled
  else
    match w.context? u with
    | some c => ⟨w.enterNested u c, .frame (.nested u c.handle) :: layers, .exec u .null body⟩
    | none => beginOutermost w layers u body

/-! ## Joins -/

/-- Looks at the next unfinished branch of a join. When all have been looked at, the join has ended
    if they all have, and is suspended else. -/
def visit (w : World H) (layers : List (Layer H)) (u : UnitId)
    (done : List (Branch H (Paused H))) : List (Branch H (Paused H)) → Machine H
  | [] =>
    if done.all fun | .finished => true | _ => false then ⟨w, layers, .finish (.ok .null)⟩
    else ⟨w, layers, .pause (.branches u done.reverse)⟩
  | .finished :: rest => visit w layers u (.finished :: done) rest
  | .idle steps :: rest => ⟨w, .joining u done rest :: layers, .exec u .null steps⟩
  | .paused p :: rest => ⟨w, .joining u done rest :: layers, .enter p⟩

/-! ## Steps of programs -/

/-- What a probe writes down. -/
def probe (w : World H) (u : UnitId) : Probe → Entry H
  | .state =>
    match w.context? u with
    | some c => .state true (some c.depth) c.rolledBack
    | none => .state false none false
  | .describe =>
    .describe (Text.record "UnitOfWork"
      [("id", "<id>"), ("context", Text.optional ((w.context? u).map (·.describe)))])
  | .transaction => .transaction ((w.context? u).map fun c => (w.source.origin, c.handle))
  | .token => .token (w.isCancelled u)
  | .source => .source w.source.status

/-- Executes a step of a program; `rest` is what follows it and `value` the value so far. -/
def execStep (w : World H) (layers : List (Layer H)) (u : UnitId) (value : Value)
    (rest : List (Step H)) : Step H → Machine H
  | .perform action =>
    let acted := H.perform action w.host
    let w := { w with host := acted.2 }
    match acted.1 with
    | .ok answer => ⟨w, layers, .exec u answer rest⟩
    | .error fault => ⟨w, layers, .finish (.error (.fault fault))⟩
  | .note v => ⟨w.record (.note v), layers, .exec u value rest⟩
  | .announce id => ⟨w.record (.effect id), layers, .exec u value rest⟩
  | .probe what => ⟨w.record (probe w u what), layers, .exec u value rest⟩
  | .give v => ⟨w, layers, .finish (.ok v)⟩
  | .fail fault => ⟨w, layers, .finish (.error (.fault fault))⟩
  | .panic => ⟨w, layers, .unwind⟩
  | .sleep ms =>
    if ms = 0 then ⟨w, layers, .exec u value rest⟩
    else ⟨w, .frame (.after u .passing value rest) :: layers, .pause (.sleeping (w.now + ms))⟩
  | .yield => ⟨w, .frame (.after u .passing value rest) :: layers, .pause .yielded⟩
  | .cancel none => ⟨w.cancel u, layers, .exec u value rest⟩
  | .cancel (some name) =>
    let found := w.named name
    ⟨found.2.cancel found.1, layers, .exec u value rest⟩
  | .armCommitFailure =>
    ⟨{ w with source := w.source.armCommitFailure }, layers, .exec u value rest⟩
  | .finish terminal =>
    match w.context? u with
    | none => failWith w layers .noActiveTransaction
    | some c =>
      startClosing (w.mark (.direct u c.handle)) layers (.direct u terminal c.handle value rest)
  | .scope .here report body =>
    enterScope w (.frame (.after u report value rest) :: layers) u body
  | .scope .fresh report body =>
    let added := w.addUnit
    enterScope added.2 (.frame (.after u report value rest) :: layers) added.1 body
  | .within .here body => enterScope w layers u body
  | .within .fresh body =>
    let added := w.addUnit
    enterScope added.2 layers added.1 body
  | .timeout ms body =>
    enterScope w (.frame (.timeout u (w.now + ms) value rest) :: layers) u body
  | .catchPanic body => enterScope w (.frame (.catchPanic u value rest) :: layers) u body
  | .defer strict effect =>
    match w.context? u with
    | some c => ⟨w.deferEffect u c effect, layers, .exec u value rest⟩
    | none =>
      if strict then failWith w layers .noActiveTransaction
      else ⟨w.record (.deferFailed .noActiveTransaction), layers, .exec u value rest⟩
  | .onUnit name body =>
    let found := w.named name
    ⟨found.2, .frame (.after u (.unit name) value rest) :: layers, .exec found.1 .null body⟩
  | .iterate 0 _ => ⟨w, layers, .exec u value rest⟩
  | .iterate (count + 1) body =>
    ⟨w, .frame (.after u .passing value (.iterate count body :: rest)) :: layers,
      .exec u .null body⟩
  | .join branches =>
    visit w (.frame (.after u .passing value rest) :: layers) u [] (branches.map .idle)

/-! ## Going on after an inner computation -/

/-- Writes an inner outcome down, and tells whether the program around it ends with it. -/
def report (w : World H) (outcome : Outcome H) : Report → World H × Bool
  | .passing =>
    match outcome with
    | .ok _ => (w, false)
    | .error _ => (w, true)
  | .strict =>
    match outcome with
    | .ok _ => (w.record (.scope outcome), false)
    | .error _ => (w, true)
  | .lenient => (w.record (.scope outcome), false)
  | .coordinator => (w.record (.coordinator outcome), false)
  | .unit name => (w.record (.unit name outcome), false)

/-- The outcome of a nested scope: work that ended well does not count once the unit has been
    cancelled (`UnitOfWork.run_nested`). -/
def nestedOutcome (w : World H) (u : UnitId) : Outcome H → Outcome H
  | .ok value => if w.isCancelled u then .error (.transaction .cancelled) else .ok value
  | .error e => .error e

/-- Goes on in a frame after the computation inside it has ended. -/
def resume (w : World H) (layers : List (Layer H)) (outcome : Outcome H) : Frame H → Machine H
  | .after u how value rest =>
    let reported := report w outcome how
    if reported.2 then ⟨reported.1, layers, .finish outcome⟩
    else ⟨reported.1, layers, .exec u value rest⟩
  | .nested u handle =>
    let outcome := nestedOutcome w u outcome
    ⟨w.leaveNested u handle (some outcome), layers, .finish outcome⟩
  | .outer u handle => closeScope w layers u handle outcome
  | .effects held u handle index rest value =>
    let w := match outcome with
      | .ok _ => w
      | .error e => w.record (.alert (.effectFailed index (e.message H)))
    nextEffect w layers held u handle (index + 1) rest value
  | .timeout u _ value rest => ⟨w.record (.timeout (some outcome)), layers, .exec u value rest⟩
  | .catchPanic u value rest =>
    ⟨w.record (.catchPanic (some outcome)), layers, .exec u value rest⟩

/-- A suspended computation is looked at again. -/
def enter (w : World H) (layers : List (Layer H)) : Paused H → Machine H
  | .sleeping due =>
    if due ≤ w.now then ⟨w, layers, .finish (.ok .null)⟩ else ⟨w, layers, .pause (.sleeping due)⟩
  | .yielded => ⟨w, layers, .finish (.ok .null)⟩
  | .acquiring u body limit wait =>
    if w.isCancelled u then failUnserved (wait.withdraw w) layers u .cancelled
    else tryAcquire w layers u body limit wait
  | .closing due failure call =>
    if due ≤ w.now then settle w layers failure call
    else ⟨w, layers, .pause (.closing due failure call)⟩
  | .under frame inner =>
    if frame.cutsOff w then failWith (inner.abandon w) (.frame frame :: layers) .cancelled
    else ⟨w, .frame frame :: layers, .enter inner⟩
  | .branches u items => visit w layers u [] items

/-- The computation in focus has been suspended inside a frame: a time limit that is over drops
    it. A program whose inner scope was dropped rests for a millisecond before it goes on: the guard
    has left a rollback to the background, which has its turn only when the run is at rest. -/
def suspend (w : World H) (layers : List (Layer H)) (p : Paused H) : Frame H → Machine H
  | .timeout u due value rest =>
    if due ≤ w.now then
      ⟨(p.abandon w).record (.timeout none), layers, .exec u value (.sleep 1 :: rest)⟩
    else ⟨w, layers, .pause (.under (.timeout u due value rest) p)⟩
  | frame => ⟨w, layers, .pause (.under frame p)⟩

/-- A panic reaches a frame: its guard runs, and a frame that catches panics goes on, after the same
    rest of a millisecond as in `suspend`. -/
def panicThrough (w : World H) (layers : List (Layer H)) : Frame H → Machine H
  | .catchPanic u value rest =>
    ⟨w.record (.catchPanic none), layers, .exec u value (.sleep 1 :: rest)⟩
  | frame => ⟨frame.unwind w, layers, .unwind⟩

/-! ## The machine -/

namespace Machine

/-- A run is at rest when no layer is left and the focus has ended or is suspended. -/
def isAtRest (m : Machine H) : Bool :=
  match m.layers, m.focus with
  | [], .finish _ => true
  | [], .unwind => true
  | [], .pause _ => true
  | _, _ => false

/-- One step of a run; a run at rest stays as it is. -/
def step (m : Machine H) : Machine H :=
  match m.focus with
  | .enter p => enter m.world m.layers p
  | .exec _ value [] => ⟨m.world, m.layers, .finish (.ok value)⟩
  | .exec u value (s :: rest) => execStep m.world m.layers u value rest s
  | .finish outcome =>
    match m.layers with
    | [] => m
    | .frame f :: layers => resume m.world layers outcome f
    | .joining u done todo :: layers =>
      visit (m.world.record (.branch done.length outcome)) layers u (.finished :: done) todo
  | .unwind =>
    match m.layers with
    | [] => m
    | .frame f :: layers => panicThrough m.world layers f
    | .joining _ done todo :: layers =>
      ⟨Paused.abandonAll (done.reverse ++ todo) m.world, layers, .unwind⟩
  | .pause p =>
    match m.layers with
    | [] => m
    | .frame f :: layers => suspend m.world layers p f
    | .joining u done todo :: layers => visit m.world layers u (.paused p :: done) todo

/-- Steps until the run is at rest, at most a number of times. -/
def settleWithin : Nat → Machine H → Machine H
  | 0, m => m
  | fuel + 1, m => if m.isAtRest then m else settleWithin fuel m.step

end Machine

end BootEngine.Work
