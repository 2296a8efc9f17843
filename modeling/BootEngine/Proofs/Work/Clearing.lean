import BootEngine.Proofs.Work.Account
import BootEngine.Proofs.Work.Changes

/-!
# Rollbacks in the background

A source with spare permits answers a rollback in the background as soon as it starts. So when the
background runs, everything in it is rolled back in its order, and nothing else happens: the events
that are then recorded can be told before.

Contents:
* `World.prospect`: the events that are recorded once the background has run.
* `Clears`, `clears_runBackground`: what a run of the background does.
* `events_elapse`: the events after some time has passed.
-/

namespace BootEngine.Work

open Transaction (Terminal Handle Source Event)

variable {H : Host}

/-- The events that are recorded once the rollbacks in the background have run. -/
def World.prospect (w : World H) : List Event :=
  w.source.events ++ w.background.map fun c => .rollback c.handle

/-- The rollbacks in the background have not started. -/
def World.IsFresh (w : World H) : Prop := ∀ c ∈ w.background, c = .fresh c.handle

/-- Rollbacks are made, and nothing else happens. -/
structure Clears (k : Nat) (cs : List Cleanup) (w w' : World H) : Prop where
  now : w'.now = w.now
  units : w'.units = w.units
  names : w'.names = w.names
  host : w'.host = w.host
  runtime : w'.hasRuntime = w.hasRuntime
  background : w'.background = w.background
  spare : HasSpare k w'.source
  next : nextHandle w'.source = nextHandle w.source
  events : w'.source.events = w.source.events ++ cs.map fun c => .rollback c.handle
  requests : w'.requests = w.requests
  journal : ∃ ws, w'.journal = ws ++ w.journal ∧ ws.filterMap Entry.unnumbered? = []

section Clears

variable {k : Nat} {w w' w'' : World H}

theorem Clears.refl (hs : HasSpare k w.source) : Clears k [] w w :=
  ⟨rfl, rfl, rfl, rfl, rfl, rfl, hs, rfl, (List.append_nil _).symm, rfl, [], rfl, rfl⟩

theorem Clears.trans {cs cs' : List Cleanup} (h : Clears k cs w w') (h' : Clears k cs' w' w'') :
    Clears k (cs ++ cs') w w'' where
  now := h'.now.trans h.now
  units := h'.units.trans h.units
  names := h'.names.trans h.names
  host := h'.host.trans h.host
  runtime := h'.runtime.trans h.runtime
  background := h'.background.trans h.background
  spare := h'.spare
  next := h'.next.trans h.next
  events := by rw [h'.events, h.events, List.map_append, List.append_assoc]
  requests := h'.requests.trans h.requests
  journal := by
    obtain ⟨ws, hws, hshown⟩ := h.journal
    obtain ⟨ws', hws', hshown'⟩ := h'.journal
    refine ⟨ws' ++ ws, by rw [hws', hws, List.append_assoc], ?_⟩
    rw [List.filterMap_append, hshown, hshown', List.append_nil]

theorem Clears.isCancelled {cs : List Cleanup} (h : Clears k cs { w with background := [] } w')
    (u : UnitId) : w'.isCancelled u = w.isCancelled u := by
  rw [World.isCancelled, World.isCancelled, World.unit, World.unit, h.units]

/-- A rollback that starts is answered at once. -/
theorem clears_pollCleanup (hs : HasSpare k w.source) (h : Handle) :
    Clears k [.fresh h] w (w.pollCleanup (.fresh h)) := by
  obtain ⟨s, hfinish, hspare, hnext, hevents⟩ := hs.finish .rollback h
  obtain ⟨hlet, hsame, hhandle⟩ := hspare.letGoAll [h]
  have hpoll : w.pollCleanup (.fresh h) =
      World.letGo [h] (((({ w with source := s } : World H).mark (.ending .rollback h))).mark
        (.ended .rollback h none)) := by
    unfold World.pollCleanup
    dsimp only
    rw [startFinish_of_spare hs hfinish]
    rfl
  rw [hpoll]
  exact {
    now := rfl
    units := rfl
    names := rfl
    host := rfl
    runtime := rfl
    background := rfl
    spare := hlet
    next := hhandle.trans hnext
    events := hsame.trans hevents
    requests := (requests_record rfl).trans (requests_record rfl)
    journal := ⟨[.mark (.ended .rollback h none), .mark (.ending .rollback h)], rfl, rfl⟩ }

theorem clears_foldl {cs : List Cleanup} (hfresh : ∀ c ∈ cs, c = .fresh c.handle)
    (hs : HasSpare k w.source) : Clears k cs w (cs.foldl World.pollCleanup w) := by
  induction cs generalizing w with
  | nil => exact .refl hs
  | cons c rest ih =>
    have hfirst := clears_pollCleanup hs c.handle
    rw [← hfresh c (List.mem_cons_self ..)] at hfirst
    exact hfirst.trans (ih (fun c' hc' => hfresh c' (List.mem_cons_of_mem _ hc')) hfirst.spare)

/-- When the background runs, everything in it is rolled back. -/
theorem clears_runBackground (hfresh : w.IsFresh) (hs : HasSpare k w.source) :
    Clears k w.background { w with background := [] } w.runBackground :=
  clears_foldl (w := { w with background := [] }) hfresh hs

/-- When some time has passed, nothing is left in the background. -/
theorem events_elapse (hfresh : w.IsFresh) (hs : HasSpare k w.source) {ms : Nat} (hms : ms ≠ 0) :
    (w.elapse ms).source.events = w.prospect := by
  have hclears := clears_runBackground hfresh hs
  have htimes : w.runBackground.backgroundDeadlines = [] := by
    rw [World.backgroundDeadlines, hclears.background]
    rfl
  rw [World.elapse, if_neg hms, World.elapseUntil, htimes]
  exact hclears.events

end Clears

end BootEngine.Work
