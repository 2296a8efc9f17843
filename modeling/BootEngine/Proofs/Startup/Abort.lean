import BootEngine.Construction.Recipe
import BootEngine.Proofs.Registry.Disposal
import BootEngine.Proofs.Startup.Layers

/-!
# Start-ups that fail

When a phase fails, the start-up fails for the same reason. Everything that has been registered by
then gives back what it holds, the last component first, and nothing that happens meanwhile keeps
another component from its turn or changes the reason.

Contents:
* `disposalsOf`, `Tidy.disposalsOf_broken`: who is asked to give back what it holds, in the trace of
  a start-up.
* `StopsAt.body_eq`, `StopsAt.settings_eq`: the phase that fails, and the settings at that time.
* `Aborts`, `aborted_of_execute`: what every start-up does that fails.
-/

namespace BootEngine.Startup

open Component (Key Instance Disposer)
open Run (each)

/-! ## Disposals in a trace -/

/-- The component that is asked to give back what it holds, with its label. -/
def Entry.disposed? : Entry → Option (Key × String)
  | .release event => event.disposed?
  | _ => none

/-- The components that are asked to give back what they hold, in order. -/
def disposalsOf (trace : List Entry) : List (Key × String) := trace.filterMap Entry.disposed?

theorem disposalsOf_append (t u : List Entry) :
    disposalsOf (t ++ u) = disposalsOf t ++ disposalsOf u := List.filterMap_append

theorem disposalsOf_release (events : List ReleaseEvent) :
    disposalsOf (events.map .release) = disposalsIn events := by
  rw [disposalsOf, List.filterMap_map]
  rfl

theorem disposalsOf_eq_nil {trace : List Entry} (h : ∀ entry ∈ trace, entry.isRelease = false) :
    disposalsOf trace = [] := by
  refine List.filterMap_eq_nil_iff.mpr fun entry hentry => ?_
  cases entry with
  | release event => cases h _ hentry
  | _ => rfl

theorem isRelease_releaseAlerts (r : Run) : ∀ entry ∈ r.releaseAlerts, entry.isRelease = false := by
  unfold Run.releaseAlerts
  dsimp only
  split
  · exact fun _ h => nomatch h
  · exact fun _ h => List.mem_singleton.mp h ▸ rfl

/-- When a phase has failed, whatever is registered and holds something is asked once to give it
    back, the last that was registered first. -/
theorem Tidy.disposalsOf_broken {r : Run} (h : Tidy r) (phase : Phase) (e : StartupError) :
    disposalsOf (r.broken phase e).trace =
      (r.registry.entries.reverse.filter (·.2.isDisposable)).map fun entry =>
        (entry.1, entry.2.label) := by
  obtain ⟨segments, hsegments, hturns⟩ :=
    disposeAll_segments r.settings.disposeLimit r.registry.entries.reverse
  rw [Run.trace_broken h.isOpen, hsegments, disposalsOf_append, disposalsOf_eq_nil h.unreleased,
    List.nil_append]
  change disposalsOf (segments.flatten.map .release ++ r.releaseAlerts) = _
  rw [disposalsOf_append, disposalsOf_eq_nil (isRelease_releaseAlerts r), List.append_nil,
    disposalsOf_release, disposalsIn_segments hturns]

/-! ## The phase that fails -/

section Failure

variable {inputs : Inputs} {done : List Phase} {phase : Phase} {made : List Move} {m : Move}
  {t : Run} {e : StartupError}

/-- The failure of a move is that of its phase. -/
theorem StopsAt.body_eq (h : StopsAt inputs done phase made m t e) :
    ∃ s, Stage inputs done s ∧ phase.body (s.enter phase) = (t, some e) := by
  obtain ⟨rest, hrest⟩ := h.isNext
  obtain ⟨r, ⟨hfront, -, s, hs, hmade⟩, hfails⟩ := h.fails
  refine ⟨s, hs, ?_⟩
  rw [Phase.body_eq, hs.moves_eq hfront, ← hrest, List.append_assoc, each_append, hmade, next_ok,
    List.singleton_append, each_cons, hfails, next_failed]

/-- When something has been registered, the settings have been read. -/
theorem StopsAt.settings_eq (h : StopsAt inputs done phase made m t e)
    (hbuilt : t.registry.entries ≠ []) : Settings.load inputs.config = .ok t.settings := by
  obtain ⟨s, hs, hframe⟩ := h.frame
  have hfront := h.isFront
  by_cases hphase : phase = .configuration
  · subst hphase
    -- no phase comes before this one, and it registers nothing
    have hnone : ∀ q ∈ done, ∀ u v, Steady q u v → u.registry.entries = [] →
        v.registry.entries = [] := fun q hq =>
      absurd ((Phase.mem_front_iff hfront).mp hq) (by cases q <;> decide)
    have hempty : s.registry.entries = [] :=
      hs.until (P := fun r => r.registry.entries = []) rfl hnone
    exact absurd ((hframe.built (by decide) (by decide)).1.trans hempty) hbuilt
  · have hin : .configuration ∈ done :=
      (Phase.mem_front_iff hfront).mpr (by revert hphase; cases phase <;> decide)
    rw [(hframe.settings hphase).1]
    exact (hs.settings_eq hin).1

end Failure

/-! ## What every start-up does that fails -/

/-- A start-up with these inputs has failed with `e` in some phase, which has left the state `t`,
    and has then released what had been built. -/
structure Aborts (inputs : Inputs) (phase : Phase) (built : List (Registration × Instance))
    (t : Run) (e : StartupError) (trace : List Entry) : Prop where
  /-- The phases before it have gone well, and the phase itself has failed with `e`. -/
  fails : ∃ done s, Stage inputs done s ∧ done ++ [phase] <+: Phase.all ∧
    phase.body (s.enter phase) = (t, some e)
  /-- What was in the registry then has been built from the first of what there was to build. -/
  registered : Built inputs built t
  distinct : (built.map (·.1.descriptor.key)).Nodup
  /-- Whatever holds something is asked once to give it back, and what was built last is asked
      first. -/
  disposals : disposalsOf trace =
    (built.reverse.filter (·.2.isDisposable)).map fun p => (p.1.descriptor.key, p.2.label)
  /-- The failure is reported, and then each of them has its turn, one after another. Nothing is
      released before that. -/
  inTurn : ∃ segments, trace = t.trace ++ .alert (.phaseFailed phase.text e.message) ::
        (segments.flatten.map .release ++ t.releaseAlerts) ∧
      (∀ entry ∈ t.trace ++ t.releaseAlerts, entry.isRelease = false) ∧
      List.Forall₂ (fun p => Disposes t.settings.disposeLimit (p.1.descriptor.key, p.2))
        (built.reverse.filter (·.2.isDisposable)) segments
  /-- The settings with the time that each of them has are those of the sources. -/
  configured : built ≠ [] → Settings.load inputs.config = .ok t.settings
  /-- If the resolver goes by the needs, then nothing is released before something that needs it. -/
  beforeProviders : inputs.resolver.resolve = Plan.resolve →
    built.reverse.Pairwise fun p q => ¬ Plan.Needs q.1.descriptor p.1.descriptor

theorem StopsAt.aborts {inputs : Inputs} {done : List Phase} {phase : Phase} {made : List Move}
    {m : Move} {t : Run} {e : StartupError} (h : StopsAt inputs done phase made m t e) :
    ∃ built, Aborts inputs phase built t e (t.broken phase e).trace := by
  obtain ⟨built, hbuilt⟩ := always_built.stops h
  have htidy := always_tidy.stops h
  have hquiet : ∀ entry ∈ t.trace ++ t.releaseAlerts, entry.isRelease = false := fun entry hentry =>
    (List.mem_append.mp hentry).elim (htidy.unreleased entry) (isRelease_releaseAlerts t entry)
  obtain ⟨segments, hsegments, hturns⟩ :=
    disposeAll_segments t.settings.disposeLimit t.registry.entries.reverse
  have htrace := Run.trace_broken htidy.isOpen phase e
  rw [hsegments] at htrace
  have hholders : t.registry.entries.reverse.filter (·.2.isDisposable) =
      (built.reverse.filter (·.2.isDisposable)).map fun p => (p.1.descriptor.key, p.2) := by
    rw [hbuilt.entries, ← List.map_reverse, List.filter_map]
    rfl
  rw [hholders] at hturns
  refine ⟨built, ?fails, hbuilt, ?distinct, ?disposals,
    ⟨segments, htrace, hquiet, List.forall₂_map_left_iff.mp hturns⟩, ?configured, ?before⟩
  case fails =>
    obtain ⟨s, hs, hbody⟩ := h.body_eq
    exact ⟨done, s, hs, h.isFront, hbody⟩
  case distinct =>
    have hdistinct := htidy.distinct
    rw [hbuilt.keys, List.map_map] at hdistinct
    exact hdistinct
  case disposals =>
    rw [htidy.disposalsOf_broken, hholders, List.map_map]
    rfl
  case configured =>
    intro hne
    refine h.settings_eq ?_
    rw [hbuilt.entries]
    exact fun hnil => hne (List.map_eq_nil_iff.mp hnil)
  case before => exact fun hneeds => List.pairwise_reverse.mpr (hbuilt.behind hneeds)

/-- A start-up that fails, fails with the failure of one of its phases. Before it ends, whatever has
    been registered and holds something has been asked once to give it back: one after another, the
    last that was built first, each in the time that the settings allow, and whatever has become of
    the others. The executor has not come to its end. -/
theorem aborted_of_execute {b : Builder} {inForce : Bool} {stopwatch : Stopwatch} {x : Executor}
    {e : StartupError} (hb : b.executor inForce stopwatch = .ok x)
    (hfails : x.execute.2.1 = .error e) :
    x.execute.2.2.completed = false ∧
      ∃ phase built t, Aborts (b.inputs stopwatch) phase built t e x.execute.1 := by
  obtain rfl := Builder.executor_eq_ok hb
  obtain ⟨r, c, -, -, hrun⟩ | ⟨done, phase, made, m, t, f, hstop, hrun⟩ :=
    execute_cases (b.inputs stopwatch)
  · rw [hrun] at hfails
    cases hfails
  · rw [hrun] at hfails ⊢
    obtain rfl := Except.error.inj hfails
    obtain ⟨built, h⟩ := hstop.aborts
    exact ⟨rfl, phase, built, t, h⟩

/-- A shop that a feature does not open in the end. Its table takes longer to be given back than the
    settings allow, and its stock cannot be given back at all. -/
def shutShop : Builder :=
  let built (typeName : String) (disposer : Option Disposer) : Option Factory :=
    some (Recipe.factory ⟨[], typeName, disposer⟩)
  { Builder.empty with
    roots := ["shop"]
    manifests := [⟨"shop.web",
      [⟨.httpHandler, "shop::List", none, [.named .service "Stock"],
          built "List" (some ⟨none, none⟩)⟩,
        ⟨.service, "shop::Stock", none, [.any .repository],
          built "Stock" (some ⟨some 20, some "locked"⟩)⟩,
        ⟨.service, "shop::Prices", none, [], built "Prices" none⟩,
        ⟨.repository, "shop::Table", some "rows", [], built "Table" (some ⟨some 9000, none⟩)⟩]⟩]
    features := [.withSteps "doors" [] [.fail "no key"]]
    source := some (.pool (.ofSize "db" 1)) }

theorem aborted_of_execute_shutShop :
    shutShop.executor false .still = .ok (.ofInputs (shutShop.inputs .still)) ∧
      disposalsOf (Executor.ofInputs (shutShop.inputs .still)).execute.1 =
        [(⟨.httpHandler, "List"⟩, "HttpHandler:List"), (⟨.service, "Stock"⟩, "Service:Stock"),
          (⟨.repository, "rows"⟩, "Repository:rows")] ∧
      ∃ phase built t, (Executor.ofInputs (shutShop.inputs .still)).execute.2.1 =
          .error (.featureFailed "doors" "no key") ∧
        Aborts (shutShop.inputs .still) phase built t (.featureFailed "doors" "no key")
          (Executor.ofInputs (shutShop.inputs .still)).execute.1 := by
  have hb : shutShop.executor false .still = .ok (.ofInputs (shutShop.inputs .still)) := rfl
  have hfails : (Executor.ofInputs (shutShop.inputs .still)).execute.2.1 =
      .error (.featureFailed "doors" "no key") := rfl
  obtain ⟨-, phase, built, t, h⟩ := aborted_of_execute hb hfails
  exact ⟨hb, by decide, phase, built, t, hfails, h⟩

end BootEngine.Startup
