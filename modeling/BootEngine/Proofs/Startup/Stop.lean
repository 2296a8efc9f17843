import BootEngine.Proofs.Registry.Closing
import BootEngine.Proofs.Startup.Abort
import BootEngine.Startup.Application

/-!
# Stopping an application

An application is stopped once. Its registry is closed and released; whoever tries to stop it
meanwhile or later is told that all is well, and nothing happens.

Contents:
* `Rests`: an application that cannot be stopped any more.
* `Application.stopping`: the states that an application goes through while it is stopped.
* `StopsOnce`, `stopsOnce`: what becomes of an application that is stopped.
* `shutdown_once`: registries and applications together.
-/

namespace BootEngine.Startup

open Component (Key Instance)

/-- An attempt to stop an application does nothing, and says that all is well. -/
structure Rests (app : Application) : Prop where
  isOver : app.status ≠ .running
  idle : app.shutdown = ([], .ok (), app)

theorem rests_of_ne_running {app : Application} (h : app.status ≠ .running) : Rests app :=
  ⟨h, by rw [Application.shutdown, if_neg h]⟩

/-- The states that an application goes through while it is stopped: its registry is still open in
    the first one, and goes through its own states after that. An application that does not run goes
    through none. -/
def Application.stopping (app : Application) : List Application :=
  if app.status = .running then
    { app with status := .stopping } :: (app.registry.closing app.settings.disposeLimit).map
      fun s => { app with registry := s.registry, status := .stopping }
  else []

theorem Application.status_of_mem_stopping {app a : Application} (h : a ∈ app.stopping) :
    a.status = .stopping := by
  unfold stopping at h
  split at h
  · obtain rfl | hin := List.mem_cons.mp h
    · rfl
    · obtain ⟨s, -, rfl⟩ := List.mem_map.mp hin
      rfl
  · cases h

/-- The status in which an application is left by what its registry answers. -/
def Status.ofAnswer : Except StartupError Nat → Status
  | .ok _ => .stopped
  | .error _ => .failed

/-- What becomes of an application that is stopped. -/
structure StopsOnce (app : Application) : Prop where
  /-- If it runs, then its registry is closed, and it fails if that fails and for the same
      reason. -/
  first : app.status = .running →
    let closing := app.registry.shutdown app.settings.disposeLimit
    app.shutdown.2.1 = closing.2.1.map (fun _ => ()) ∧
      app.shutdown.2.2 = { app with
        registry := closing.2.2, status := .ofAnswer closing.2.1 } ∧
      disposalsOf app.shutdown.1 = disposalsIn closing.1
  /-- Whoever tries to stop it meanwhile has nothing to do, in whatever state it finds it. -/
  during : ∀ a ∈ app.stopping, a.status = .stopping ∧ Rests a
  /-- No application can be stopped that is being stopped, whatever its registry is. -/
  stopping : ∀ registry, Rests { app with registry, status := .stopping }
  /-- After that it is not stopped again. -/
  after : Rests app.shutdown.2.2

theorem stopsOnce (app : Application) : StopsOnce app := by
  have hfirst : app.status = .running →
      let closing := app.registry.shutdown app.settings.disposeLimit
      app.shutdown.2.1 = closing.2.1.map (fun _ => ()) ∧
        app.shutdown.2.2 = { app with
          registry := closing.2.2, status := .ofAnswer closing.2.1 } ∧
        disposalsOf app.shutdown.1 = disposalsIn closing.1 := by
    intro hruns
    dsimp only
    rw [Application.shutdown, if_pos hruns]
    dsimp only
    obtain ⟨events, answer, registry⟩ := app.registry.shutdown app.settings.disposeLimit
    cases answer with
    | ok count => exact ⟨rfl, rfl, disposalsOf_release events⟩
    | error e =>
      refine ⟨rfl, rfl, ?_⟩
      rw [disposalsOf_append, disposalsOf_release]
      exact List.append_nil _
  have hduring : ∀ a ∈ app.stopping, a.status = .stopping ∧ Rests a := by
    intro a ha
    have hstatus := Application.status_of_mem_stopping ha
    exact ⟨hstatus, rests_of_ne_running (by rw [hstatus]; exact nofun)⟩
  refine ⟨hfirst, hduring, fun registry => rests_of_ne_running nofun, ?_⟩
  apply rests_of_ne_running
  by_cases hruns : app.status = .running
  · rw [(hfirst hruns).2.1]
    show Status.ofAnswer _ ≠ .running
    cases (app.registry.shutdown app.settings.disposeLimit).2.1 <;> exact nofun
  · rw [(rests_of_ne_running hruns).idle]
    exact hruns

/-- A registry into which any components have been put, one after another, is closed once: whatever
    holds something is asked once to give it back, the last first and one after another, each in the
    time that it has; the answer counts them or joins all complaints; and nothing is found from the
    beginning of the first turn on. An application that is stopped closes its registry in this way,
    and is left stopped or failed for good. -/
theorem shutdown_once (source : Option String) (coordinator : Option Transaction.Coordinator)
    (offers : List (Key × Instance)) (limit : Nat) (app : Application) :
    ClosesOnce limit (.filled source coordinator offers) ∧ StopsOnce app := by
  obtain ⟨hopen, hdistinct⟩ := Registry.filled_sound source coordinator offers
  exact ⟨closesOnce hopen hdistinct limit, stopsOnce app⟩

end BootEngine.Startup
