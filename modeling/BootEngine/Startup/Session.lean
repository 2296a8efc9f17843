import BootEngine.Startup.Application
import BootEngine.Work.Script

/-!
# Sessions

An application in use: its components, its units of work on the data source, and the clock that they
share. While an application stops, rollbacks that are still under way in the background go on.

Contents:
* `Session`: the application with the world of its work.
* `weave`: what happens in the background during a release.
* `Session.stop`, `Session.work`, `Session.startAgain`: the use of an application.
-/

namespace BootEngine.Startup

open Transaction (Source)
open Work (World Host Step Verdict)

/-- What is noted while an application is in use: by its life, or by its work. -/
inductive SessionEntry (H : Host) where
  | life (e : Entry)
  | work (e : Work.Entry H)

/-- The alert of an entry, if it is one. -/
def SessionEntry.alert? {H : Host} : SessionEntry H → Option Alert
  | .life e => e.alert?
  | .work e => e.alert?

/-- An application with the world of its work, and the executor that has started it. -/
structure Session (H : Host) where
  application : Application
  executor : Executor
  world : World H

variable {H : Host}

/-- Goes through the entries of a stop. Whenever time passes, the world goes on; what it notes then
    stands at that place. -/
def weave (w : World H) : List Entry → World H × List (SessionEntry H)
  | [] => (w, [])
  | .release (.waited ms) :: rest =>
    let w := w.renew.elapse ms
    let woven := weave w rest
    (woven.1, w.log.map .work ++ woven.2)
  | e :: rest =>
    let woven := weave w rest
    (woven.1, .life e :: woven.2)

namespace Session

/-- An application that has just been started. -/
def start (app : Application) (executor : Executor) (source : Source) (host : H.State) :
    Session H :=
  ⟨app, executor, .fresh source app.coordinator.acquireLimit host⟩

/-- Stops the application. -/
def stop (s : Session H) : List (SessionEntry H) × Except StartupError Unit × Session H :=
  let (entries, outcome, application) := s.application.shutdown
  let (world, log) := weave s.world entries
  (log, outcome, { s with application, world })

/-- Runs a program of work on the coordinator of the application. -/
def work (steps : List (Step H)) (s : Session H) :
    List (SessionEntry H) × Verdict H × Session H :=
  let (world, verdict) := Work.runScript steps s.world.renew
  (world.log.map .work, verdict, { s with world })

/-- Tries to start the application again. -/
def startAgain (s : Session H) : List (SessionEntry H) × Except StartupError Unit × Session H :=
  let (entries, outcome, executor) := s.executor.execute
  (entries.map .life, outcome.map fun _ => (), { s with executor })

end Session

end BootEngine.Startup
