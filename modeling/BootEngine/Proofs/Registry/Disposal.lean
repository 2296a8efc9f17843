import Mathlib.Data.List.Forall2
import BootEngine.Registry.Release

/-!
# Giving back

When several components give back what they hold, each of them is asked once and has its own time
for it. What comes of it is reported, and the next one has its turn, whatever has come of it.

Contents:
* `disposalsIn`, `spent`: who is asked in a release, and the time that it takes.
* `GivesBack`, `givesBack_disposeOne`: how one component gives back what it holds.
* `disposeAll`, `Registry.shutdown_eq`: the turns of several components, and the answer after them.
* `disposeAll_segments`, `disposalsIn_segments`: how several do it.
-/

namespace BootEngine

open Component (Key Instance Disposer)

namespace ReleaseEvent

/-- The component that is asked to give back what it holds, with its label. -/
def disposed? : ReleaseEvent → Option (Key × String)
  | .started key label => some (key, label)
  | _ => none

/-- The time that an event takes. -/
def span : ReleaseEvent → Nat
  | .waited ms => ms
  | _ => 0

/-- The alert of an event, if it is one. -/
def alert? : ReleaseEvent → Option Alert
  | .alert a => some a
  | _ => none

end ReleaseEvent

/-- The components that are asked to give back what they hold, in order. -/
def disposalsIn (events : List ReleaseEvent) : List (Key × String) :=
  events.filterMap ReleaseEvent.disposed?

/-- The time that events take together. -/
def spent : List ReleaseEvent → Nat
  | [] => 0
  | event :: rest => event.span + spent rest

/-- What a component does with its turn: it gives back what it holds in these events, and has
    `limit` milliseconds for it. -/
structure GivesBack (limit : Nat) (key : Key) (label : String) (d : Disposer)
    (events : List ReleaseEvent) : Prop where
  /-- It is asked at the beginning, and not a second time. -/
  asked : ∃ after, events = .started key label :: after ∧ disposalsIn after = []
  /-- It takes the time that it needs, or the time that it has if that is shorter. -/
  time : spent events = min (d.delay.getD 0) limit
  /-- If it needs more time than it has, it does not go on, and that is reported. -/
  cutOff : limit < d.delay.getD 0 → .resumed label ∉ events ∧
    events.filterMap ReleaseEvent.alert? =
      [.disposeTimedOut key.text (Time.Span.ofMillis limit).render]
  /-- If it has the time that it needs, it goes on after its rest, and nothing but its own failure
      is reported. -/
  inTime : d.delay.getD 0 ≤ limit → (d.delay.isSome → .resumed label ∈ events) ∧
    events.filterMap ReleaseEvent.alert? = d.failure.toList.map (.disposeFailed key.text)

/-! ## One component -/

section Rest

variable (label : String) (delay : Option Nat)

theorem resumed_mem_rest (h : delay.isSome) : .resumed label ∈ rest label delay := by
  obtain _ | _ | ms := delay
  · cases h
  · exact List.mem_singleton_self _
  · exact List.mem_cons_of_mem _ (List.mem_singleton_self _)

theorem disposalsIn_rest : disposalsIn (rest label delay) = [] := by
  obtain _ | _ | ms := delay <;> rfl

theorem spent_rest : spent (rest label delay) = delay.getD 0 := by
  obtain _ | _ | ms := delay <;> rfl

theorem alerts_rest : (rest label delay).filterMap ReleaseEvent.alert? = [] := by
  obtain _ | _ | ms := delay <;> rfl

end Rest

theorem disposalsIn_append (l k : List ReleaseEvent) :
    disposalsIn (l ++ k) = disposalsIn l ++ disposalsIn k := List.filterMap_append

theorem spent_append (l k : List ReleaseEvent) : spent (l ++ k) = spent l + spent k := by
  induction l with
  | nil => exact (Nat.zero_add _).symm
  | cons event l ih => rw [List.cons_append, spent, spent, ih, Nat.add_assoc]

theorem givesBack_disposeOne (limit : Nat) (key : Key) (label : String) (d : Disposer) :
    GivesBack limit key label d (disposeOne limit key label d).1 := by
  unfold disposeOne
  split
  · next hle =>
    -- what it says at the end is its failure, if it has one
    have hends : ∀ said : List ReleaseEvent, disposalsIn said = [] → spent said = 0 →
        said.filterMap ReleaseEvent.alert? = d.failure.toList.map (.disposeFailed key.text) →
          GivesBack limit key label d (.started key label :: (rest label d.delay ++ said)) := by
      intro said hasked hspent hsaid
      refine ⟨⟨_, rfl, ?_⟩, ?_, fun hlt => absurd hle (Nat.not_le.mpr hlt),
        fun _ => ⟨fun h => ?_, ?_⟩⟩
      · rw [disposalsIn_append, disposalsIn_rest, hasked, List.nil_append]
      · change 0 + spent (rest label d.delay ++ said) = _
        rw [spent_append, spent_rest, hspent, Nat.min_eq_left hle, Nat.zero_add, Nat.add_zero]
      · exact List.mem_cons_of_mem _ (List.mem_append_left _ (resumed_mem_rest label d.delay h))
      · change (rest label d.delay ++ said).filterMap ReleaseEvent.alert? = _
        rw [List.filterMap_append, alerts_rest, hsaid, List.nil_append]
    cases hfailure : d.failure with
    | none =>
      have h := hends [] rfl rfl (by rw [hfailure]; rfl)
      rwa [List.append_nil] at h
    | some reason => exact hends _ rfl rfl (by rw [hfailure]; rfl)
  · next hgt =>
    refine ⟨⟨_, rfl, rfl⟩, ?_, fun _ => ⟨by simp, rfl⟩, fun hle => absurd hle hgt⟩
    rw [Nat.min_eq_right (Nat.le_of_not_le hgt)]
    simp [spent, ReleaseEvent.span]

/-! ## Several components -/

/-- What happens when components have their turns one after another, and how each turn ends; those
    that hold nothing are passed over. -/
def disposeAll (limit : Nat) : List (Key × Instance) → List ReleaseEvent × List ReleaseFault
  | [] => ([], [])
  | (key, item) :: rest =>
    let others := disposeAll limit rest
    match item.disposer with
    | none => others
    | some d =>
      let one := disposeOne limit key item.label d
      (one.1 ++ others.1, one.2 :: others.2)

/-- A release that has given turns to components has their events and their faults behind its own,
    and has counted the turns without a fault. -/
theorem Release.foldl_turn (limit : Nat) (entries : List (Key × Instance)) (s : Release) :
    entries.foldl (turn limit) s =
      ⟨s.registry, s.events ++ (disposeAll limit entries).1,
        s.disposed + (disposeAll limit entries).2.count none,
        s.faults ++ (disposeAll limit entries).2.filterMap id⟩ := by
  induction entries generalizing s with
  | nil => rw [disposeAll, List.append_nil, List.filterMap_nil, List.append_nil]; rfl
  | cons entry others ih =>
    obtain ⟨key, item⟩ := entry
    rw [List.foldl_cons, ih, turn, disposeAll]
    cases item.disposer with
    | none => rfl
    | some d =>
      dsimp only
      obtain ⟨events, _ | fault⟩ := disposeOne limit key item.label d
      · simp [Nat.add_assoc, Nat.add_comm 1]
      · simp

theorem count_none_of_filterMap {ends : List ReleaseFault} (h : ends.filterMap id = []) :
    ends.count none = ends.length := by
  refine List.count_eq_length.mpr fun fault hfault => ?_
  exact (List.filterMap_eq_nil_iff.mp h fault hfault).symm

/-- The answer of a release counts the turns if no one is complained about. -/
theorem Registry.shutdown_eq {r : Registry} (hopen : r.closed = false) (limit : Nat) :
    r.shutdown limit =
      ((disposeAll limit r.entries.reverse).1,
        if ((disposeAll limit r.entries.reverse).2.filterMap id).isEmpty
          then .ok (disposeAll limit r.entries.reverse).2.length
        else .error (.shutdownFailed
          ("; ".intercalate ((disposeAll limit r.entries.reverse).2.filterMap id))),
        { r with closed := true }) := by
  rw [shutdown, hopen, if_neg Bool.false_ne_true]
  simp only [Release.foldl_turn, Release.start, Release.outcome, List.nil_append, Nat.zero_add]
  cases hfaults : (disposeAll limit r.entries.reverse).2.filterMap id with
  | nil => rw [count_none_of_filterMap hfaults]
  | cons fault faults => rfl

/-- What a registered component does with its turn. -/
def Disposes (limit : Nat) (entry : Key × Instance) (events : List ReleaseEvent) : Prop :=
  ∃ d, entry.2.disposer = some d ∧ GivesBack limit entry.1 entry.2.label d events

/-- The components that hold something have their turns one after another. -/
theorem disposeAll_segments (limit : Nat) (entries : List (Key × Instance)) :
    ∃ segments, (disposeAll limit entries).1 = segments.flatten ∧
      List.Forall₂ (Disposes limit) (entries.filter (·.2.isDisposable)) segments := by
  induction entries with
  | nil => exact ⟨[], rfl, .nil⟩
  | cons entry others ih =>
    obtain ⟨key, item⟩ := entry
    obtain ⟨segments, hsegments, hall⟩ := ih
    rw [disposeAll, List.filter_cons, Instance.isDisposable]
    cases hd : item.disposer with
    | none => exact ⟨segments, hsegments, hall⟩
    | some d =>
      refine ⟨(disposeOne limit key item.label d).1 :: segments, ?_, ?_⟩
      · rw [List.flatten_cons, ← hsegments]
      · exact .cons ⟨d, hd, givesBack_disposeOne limit key item.label d⟩ hall

/-- Who has something to give back is asked once. -/
theorem disposalsIn_segments {limit : Nat} {entries : List (Key × Instance)}
    {segments : List (List ReleaseEvent)} (h : List.Forall₂ (Disposes limit) entries segments) :
    disposalsIn segments.flatten = entries.map fun entry => (entry.1, entry.2.label) := by
  induction h with
  | nil => rfl
  | cons hfirst _ ih =>
    obtain ⟨d, -, hback⟩ := hfirst
    obtain ⟨after, rfl, hafter⟩ := hback.asked
    rw [List.flatten_cons, disposalsIn_append, ih, List.map_cons]
    change _ :: disposalsIn after ++ _ = _
    rw [hafter, List.singleton_append]

end BootEngine
