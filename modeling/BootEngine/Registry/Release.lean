import BootEngine.Alert
import BootEngine.Registry.Basic

/-!
# Release

Closing a registry. The components that hold something give it back one after another, the one that
was put in last first. Each has the same time for it and is cut off when that is over; neither a
failure nor a cut-off keeps the others from their turn.

Contents:
* `ReleaseEvent`: what happens during a release.
* `disposeOne`: the release of one component.
* `Release`: a release that is under way, `Release.turn`, `Release.outcome`.
* `Registry.shutdown`: closes a registry.
-/

namespace BootEngine

open Component (Key Instance Disposer)

/-- What happens during a release. -/
inductive ReleaseEvent where
  /-- The component under a key starts to give back what it holds. -/
  | started (key : Key) (label : String)
  /-- Time passes. -/
  | waited (ms : Nat)
  /-- The component goes on after its rest. -/
  | resumed (label : String)
  | alert (a : Alert)
  deriving Repr

/-- How the release of a component ends: `none` if it went well, else what is said about it. -/
abbrev ReleaseFault := Option String

/-- A component rests. A rest without length takes no time. -/
def rest (label : String) : Option Nat → List ReleaseEvent
  | none => []
  | some 0 => [.resumed label]
  | some ms => [.waited ms, .resumed label]

/-- One component gives back what it holds, in `limit` milliseconds at most. What takes exactly that
    long is in time. -/
def disposeOne (limit : Nat) (key : Key) (label : String) (d : Disposer) :
    List ReleaseEvent × ReleaseFault :=
  if d.delay.getD 0 ≤ limit then
    match d.failure with
    | none => (.started key label :: rest label d.delay, none)
    | some reason =>
      (.started key label :: rest label d.delay ++ [.alert (.disposeFailed key.text reason)],
        some (key.text ++ ": " ++ reason))
  else
    ([.started key label, .waited limit,
        .alert (.disposeTimedOut key.text (Time.Span.ofMillis limit).render)],
      some (key.text ++ ": 释放超时 (" ++ toString limit ++ "ms)"))

/-- A release that is under way: the registry, what has happened, how many components have given
    back what they held, and what is said about those that have not. -/
structure Release where
  registry : Registry
  events : List ReleaseEvent
  disposed : Nat
  faults : List String

namespace Release

/-- The registry is closed before anyone has a turn. -/
def start (r : Registry) : Release := ⟨{ r with closed := true }, [], 0, []⟩

/-- A component has its turn. One that holds nothing is passed over. -/
def turn (limit : Nat) (s : Release) (entry : Key × Instance) : Release :=
  match entry.2.disposer with
  | none => s
  | some d =>
    match disposeOne limit entry.1 entry.2.label d with
    | (events, none) => { s with events := s.events ++ events, disposed := s.disposed + 1 }
    | (events, some fault) =>
      { s with events := s.events ++ events, faults := s.faults ++ [fault] }

/-- The answer after all turns. -/
def outcome (s : Release) : Except StartupError Nat :=
  if s.faults.isEmpty then .ok s.disposed
  else .error (.shutdownFailed ("; ".intercalate s.faults))

end Release

namespace Registry

/-- Closes a registry (`InMemoryComponentRegistry.shutdown`). The answer counts the components that
    gave back what they held, or joins what is said about those that did not. A registry that is
    closed already does nothing. -/
def shutdown (limit : Nat) (r : Registry) :
    List ReleaseEvent × Except StartupError Nat × Registry :=
  if r.closed then ([], .ok 0, r)
  else
    let s := r.entries.reverse.foldl (Release.turn limit) (.start r)
    (s.events, s.outcome, s.registry)

end Registry

end BootEngine
