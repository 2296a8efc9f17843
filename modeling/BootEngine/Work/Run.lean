import BootEngine.Work.Machine

/-!
# Whole runs

A program is looked at in passes. A pass looks once at everything that is suspended; after it the
rollbacks in the background run. As long as anything can go on, another pass follows at the same
time; when everything waits, the clock jumps to the next timer. If the program and a rollback wait
for the same time, the program goes on first.

Contents:
* `World.runBackground`: the rollbacks in the background run as far as they can.
* `World.elapse`: time passes while the program waits.
* `Verdict`, `pass`, `waitFor`, `drive`, `runScript`: a whole run under a time limit.
* `runDetached`: one look at a scope without a runtime.
-/

namespace BootEngine.Work

open Transaction (Terminal Handle Source)

variable {H : Host}

namespace World

/-! ## Rollbacks in the background -/

/-- A rollback in the background has been answered. -/
def endCleanup (handle : Handle) (failure : Option String) (w : World H) : World H :=
  (w.noteRollback handle failure).letGo [handle]

/-- Looks at a rollback in the background: it starts, or ends when its answer is there. What is left
    of it stays in the background. -/
def pollCleanup (w : World H) : Cleanup → World H
  | .fresh handle =>
    let started := w.startFinish .rollback handle
    if started.1.delay = 0 then started.2.endCleanup handle started.1.failure
    else
      { started.2 with background := started.2.background ++
          [.waiting handle (w.now + started.1.delay) started.1.failure] }
  | .waiting handle due failure =>
    if due ≤ w.now then w.endCleanup handle failure
    else { w with background := w.background ++ [.waiting handle due failure] }

/-- Looks once at every rollback in the background, in their order. -/
def runBackground (w : World H) : World H :=
  w.background.foldl pollCleanup { w with background := [] }

/-- The times at which rollbacks in the background are answered. -/
def backgroundDeadlines (w : World H) : List Nat :=
  w.background.filterMap fun
    | .fresh _ => none
    | .waiting _ due _ => some due

/-! ## Time -/

/-- The least of the times that are still to come. -/
def nextTimer (w : World H) (times : List Nat) : Option Nat :=
  (times.filter (w.now < ·)).min?

/-- Lets the background run up to a time, at which the waiting program goes on first. -/
def elapseUntil (target : Nat) : Nat → World H → World H
  | 0, w => { w with now := target }
  | fuel + 1, w =>
    let w := w.runBackground
    match w.nextTimer (w.backgroundDeadlines.filter (· < target)) with
    | some time => elapseUntil target fuel { w with now := time }
    | none => { w with now := target }

/-- A span of time passes while the program waits; each rollback in the background stops the clock
    once at most. No time at all is no wait. -/
def elapse (ms : Nat) (w : World H) : World H :=
  if ms = 0 then w else w.elapseUntil (w.now + ms) (w.background.length + 1)

end World

/-! ## Runs -/

/-- How a whole run ends. -/
inductive Verdict (H : Host) where
  | ended (outcome : Outcome H)
  | panicked
  | stuck

/-- One pass: everything that is suspended is looked at once. -/
def pass (fuel : Nat) (w : World H) (focus : Focus H) : Machine H :=
  Machine.settleWithin fuel ⟨w, [], focus⟩

/-- When everything waits, the background runs, and if nothing can go on then, the clock jumps to
    the next timer, at the latest to the limit. -/
def waitFor (limit : Nat) (p : Paused H) (w : World H) : World H :=
  let w := w.runBackground
  if p.isReady w then w
  else { w with now := (w.nextTimer (limit :: (p.deadlines ++ w.backgroundDeadlines))).getD limit }

/-- Runs a program in passes until it has ended or its time is over; then it is dropped. `passes`
    bounds the number of passes and `fuel` the length of each. -/
def drive (limit fuel : Nat) : Nat → World H → Focus H → World H × Verdict H
  | 0, w, _ => (w, .stuck)
  | passes + 1, w, focus =>
    match pass fuel w focus with
    | ⟨w, [], .finish outcome⟩ => (w, .ended outcome)
    | ⟨w, [], .pause p⟩ =>
      if limit ≤ w.now then (p.abandon w, .stuck)
      else drive limit fuel passes (waitFor limit p w) (.enter p)
    | ⟨w, [], .unwind⟩ => (w, .panicked)
    | ⟨w, _, _⟩ => (w, .stuck)

/-- The time that a program is given: one hour. -/
def timeAllowed : Nat := 3600000

/-- Runs a program on the first unit of a world, then lets one more millisecond pass. -/
def runScript (steps : List (Step H)) (w : World H) : World H × Verdict H :=
  let bound := 16 * (Step.costAll steps + 4 * w.background.length + 4)
  let ran := drive (w.now + timeAllowed) bound bound w (.exec 0 .null steps)
  (ran.1.elapse 1, ran.2)

/-- Looks once at a scope without a runtime, and drops it if it is suspended then. A missing outcome
    stands for the drop. -/
def runDetached (body : List (Step H)) (w : World H) : World H × Option (Verdict H) :=
  let bound := 16 * (Step.costAll body + 4)
  match pass bound { w with hasRuntime := false } (.exec 0 .null [.within .here body]) with
  | ⟨w, [], .finish outcome⟩ => (w, some (.ended outcome))
  | ⟨w, [], .pause p⟩ => (p.abandon w, none)
  | ⟨w, [], .unwind⟩ => (w, some .panicked)
  | ⟨w, _, _⟩ => (w, some .stuck)

/-- A world in which nothing has happened: one unit, called main, on a source. -/
def World.fresh (source : Source) (acquireLimit : Option Nat) (host : H.State) : World H :=
  { now := 0, source, acquireLimit, units := [.idle], names := [("main", 0)], background := [],
    host, hasRuntime := true, journal := [] }

/-- The next program on the same source and clock: fresh units and an empty journal. -/
def World.renew (w : World H) : World H :=
  { w with units := [.idle], names := [("main", 0)], journal := [] }

/-- The shown entries of a journal, oldest first. -/
def World.log (w : World H) : List (Entry H) := w.journal.reverse.filter Entry.isShown

end BootEngine.Work
