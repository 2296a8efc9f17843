import BootEngine.Proofs.Startup.Abort
import BootEngine.Proofs.Startup.Guards

/-!
# Components that are lost

A factory that gives a component back may have taken hold of something. If the start-up fails later
on, whatever is in the registry is asked to give it back. A component that could not be put in,
because its key was taken, is in no collection that the release goes through: it is lost, and with
it whatever it holds. That happens to one component at most, the last that is built, and not at all
if the resolver goes by the needs.

Contents:
* `builtIn`, `NothingEscapes`: what factories have given back, and that all of it is released.
* `Move.builtIn_act`, `unbroken_builtIn`: what has been built is registered as long as no move has
  failed.
* `StopsAt.builtIn_eq`: what has been built when a move has failed.
* `Accounts`, `nothing_escapes_iff`: what becomes of everything that a failed start-up has built.
-/

namespace BootEngine.Startup

open Component (Key Instance Disposer)
open Run (each)

/-! ## What factories have given back -/

/-- What a factory has given back, with its key. -/
def Entry.built? : Entry → Option (Key × Instance)
  | .built key item => some (key, item)
  | _ => none

/-- Everything that factories have given back in a trace, in order. -/
def builtIn (trace : List Entry) : List (Key × Instance) := trace.filterMap Entry.built?

/-- Everything that a factory has given back and that holds something is asked to give it back,
    exactly once. -/
def NothingEscapes (trace : List Entry) : Prop :=
  (disposalsOf trace).Perm
    (((builtIn trace).filter (·.2.isDisposable)).map fun entry => (entry.1, entry.2.label))

theorem builtIn_append (t u : List Entry) : builtIn (t ++ u) = builtIn t ++ builtIn u :=
  List.filterMap_append

theorem builtIn_eq_nil {trace : List Entry} (h : ∀ entry ∈ trace, entry.built? = none) :
    builtIn trace = [] := List.filterMap_eq_nil_iff.mpr h

/-- Entries that a first one stands before, and that come from something else, build nothing. -/
theorem builtIn_cons_map {α : Type} {first : Entry} {f : α → Entry} {l : List α}
    (hfirst : first.built? = none) (h : ∀ a, (f a).built? = none) :
    builtIn (first :: l.map f) = [] := by
  refine builtIn_eq_nil fun entry hentry => ?_
  rcases List.mem_cons.mp hentry with rfl | hentry
  · exact hfirst
  · obtain ⟨a, -, rfl⟩ := List.mem_map.mp hentry
    exact h a

theorem builtIn_note {r : Run} {entries : List Entry} (h : builtIn entries = []) :
    builtIn (r.note entries).trace = builtIn r.trace := by
  rw [Run.note, builtIn_append, h, List.append_nil]

theorem builtIn_map {α : Type} {f : α → Entry} (l : List α) (h : ∀ a, (f a).built? = none) :
    builtIn (l.map f) = [] := by
  refine builtIn_eq_nil fun entry hentry => ?_
  obtain ⟨a, -, rfl⟩ := List.mem_map.mp hentry
  exact h a

/-- What a failed insertion says. -/
theorem instantiate_eq_of_taken {r : Run} {phase : Phase} {c : Registration} {item : Instance}
    (hmade : (c.factory (r.view c)).2 = .ok item)
    (htaken : (r.registry.find? c.descriptor.key).isSome) :
    instantiate phase c r = ((r.note (r.createEntries c)).note [.built c.descriptor.key item],
      some (.dependency (.duplicate c.descriptor.key.text))) := by
  obtain ⟨other, hother⟩ := Option.isSome_iff_exists.mp htaken
  unfold instantiate
  dsimp only
  rw [show (c.factory ⟨c.descriptor, r.registry,
    r.settings.component? c.descriptor.key.name⟩).2 = .ok item from hmade]
  dsimp only [Run.note, Registry.insert]
  rw [hother]
  rfl

/-- A move builds nothing and leaves the entries of the registry as they were, or it has built a
    component. That is then in the registry, or the move fails because its key is taken. -/
theorem Move.builtIn_act (m : Move) (r : Run) :
    (builtIn (m.act r).1.trace = builtIn r.trace ∧
        (m.act r).1.registry.entries = r.registry.entries) ∨
      ∃ web c item, m = .create web c ∧
        builtIn (m.act r).1.trace = builtIn r.trace ++ [(c.descriptor.key, item)] ∧
        ((m.act r).1.registry.entries = r.registry.entries ++ [(c.descriptor.key, item)] ∨
          c.descriptor.key ∈ r.registry.entries.map Prod.fst ∧
            (m.act r).1.registry.entries = r.registry.entries ∧
            (m.act r).2 = some (.dependency (.duplicate c.descriptor.key.text))) := by
  cases m with
  | configure =>
    obtain ⟨e, -, h⟩ | ⟨settings, -, h⟩ := configure_cases r <;> rw [act, h] <;>
      exact .inl ⟨rfl, rfl⟩
  | registerCore =>
    obtain ⟨e, -, h⟩ | ⟨source, -, h⟩ := registerCore_cases r <;> rw [act, h] <;>
      exact .inl ⟨rfl, rfl⟩
  | vet seen f => exact .inl ⟨rfl, rfl⟩
  | provide f =>
    obtain ⟨part, e, -, h⟩ | ⟨registrations, -, h⟩ := askFeature_cases r f <;> rw [act, h] <;>
      exact .inl ⟨builtIn_note rfl, rfl⟩
  | scan s =>
    have hquiet : builtIn (s.entries r.roots) = [] := builtIn_cons_map rfl fun _ => rfl
    obtain ⟨e, -, h⟩ | ⟨found, -, h⟩ := scanWith_cases r s <;> rw [act, h] <;>
      exact .inl ⟨builtIn_note hquiet, rfl⟩
  | order =>
    obtain ⟨pending, e, -, h⟩ | ⟨ordered, -, h⟩ := orderCollected_cases r <;> rw [act, h] <;>
      exact .inl ⟨builtIn_note rfl, rfl⟩
  | setAside c => exact .inl ⟨rfl, rfl⟩
  | create web c =>
    have hquiet : builtIn (r.createEntries c) = [] := builtIn_cons_map rfl fun _ => rfl
    obtain ⟨e, -, h⟩ | ⟨item, e, hmade, htaken, -⟩ | ⟨item, -, -, h⟩ :=
      instantiate_cases r (.ofLayer web) c
    · rw [act, h]
      exact .inl ⟨builtIn_note hquiet, rfl⟩
    · rw [act, instantiate_eq_of_taken hmade htaken]
      refine .inr ⟨web, c, item, rfl, ?_, .inr ⟨?_, rfl, rfl⟩⟩
      · rw [Run.note, builtIn_append, builtIn_note hquiet]
        rfl
      · by_contra hnew
        rw [Registry.find?_eq_none_iff.mpr hnew] at htaken
        cases htaken
    · rw [act, h]
      refine .inr ⟨web, c, item, rfl, ?_, .inl rfl⟩
      rw [Run.published, builtIn_append, builtIn_append, hquiet, List.append_nil]
      rfl
  | takeUp => exact .inl ⟨rfl, rfl⟩
  | bind binder key =>
    obtain ⟨e, -, h⟩ | ⟨item, -, ⟨e, h⟩ | ⟨-, h⟩⟩ := bindRoute_cases r binder key <;>
      rw [act, h]
    · exact .inl ⟨rfl, rfl⟩
    · exact .inl ⟨builtIn_note rfl, rfl⟩
    · exact .inl ⟨builtIn_note rfl, rfl⟩
  | ready f =>
    have hquiet : builtIn (r.readyEntries f) = [] := builtIn_cons_map rfl fun _ => rfl
    obtain ⟨e, -, h⟩ | ⟨-, h⟩ := notify_cases r f <;> rw [act, h] <;>
      exact .inl ⟨builtIn_note hquiet, rfl⟩
  | check =>
    obtain ⟨alerts, o, h⟩ := checkRegistered_cases r
    rw [act, h]
    exact .inl ⟨builtIn_note (builtIn_map alerts fun _ => rfl), rfl⟩

/-! ## What is registered -/

section Registered

variable {inputs : Inputs} {done : List Phase} {phase : Phase} {made : List Move} {m : Move}
  {t : Run} {e : StartupError}

/-- As long as no move has failed, the registry has just what has been built. -/
theorem unbroken_builtIn : Unbroken inputs fun r => builtIn r.trace = r.registry.entries := by
  have hquiet : ∀ (r : Run) (entry : String → Phase → Entry) (phase : Phase),
      (∀ listener, (entry listener phase).built? = none) →
        builtIn (r.note (r.inputs.listeners.map (entry · phase))).trace = builtIn r.trace :=
    fun r entry phase h => builtIn_note (builtIn_map _ h)
  refine .of_moves rfl (fun phase r h => (hquiet r .phaseStarted phase fun _ => rfl).trans h)
    (fun phase r h => (hquiet (r.timed phase) .phaseCompleted phase fun _ => rfl).trans h) ?_
  rintro m r s - hact h
  have hbuilt := m.builtIn_act r
  rw [hact] at hbuilt
  obtain ⟨hsame, hentries⟩ | ⟨web, c, item, -, hadds, hentries | ⟨-, -, hfails⟩⟩ := hbuilt
  · rw [hsame, hentries, h]
  · rw [hadds, hentries, h]
  · cases hfails

/-- When a move has failed, everything that has been built is registered but for the component of
    this move, if its key was taken. -/
theorem StopsAt.builtIn_eq (h : StopsAt inputs done phase made m t e) :
    ∃ lost : Option (Key × Instance), builtIn t.trace = t.registry.entries ++ lost.toList ∧
      (∀ entry ∈ lost, entry.1 ∈ t.registry.entries.map Prod.fst ∧
        e = .dependency (.duplicate entry.1.text)) ∧
      (inputs.resolver.resolve = Plan.resolve → lost = none) := by
  obtain ⟨r, hr, hfails⟩ := h.fails
  have hbefore := unbroken_builtIn.midway hr
  have hbuilt := m.builtIn_act r
  rw [hfails, hbefore] at hbuilt
  obtain ⟨hsame, hentries⟩ | ⟨web, c, item, hm, hadds, hentries | ⟨htaken, hentries, he⟩⟩ := hbuilt
  · exact ⟨none, by rw [hsame, hentries, Option.toList_none, List.append_nil],
      fun _ hentry => (Option.not_mem_none _ hentry).elim, fun _ => rfl⟩
  · exact ⟨none, by rw [hadds, hentries, Option.toList_none, List.append_nil],
      fun _ hentry => (Option.not_mem_none _ hentry).elim, fun _ => rfl⟩
  · refine ⟨some (c.descriptor.key, item), by rw [hadds, hentries, Option.toList_some], ?_, ?_⟩
    · rintro entry ⟨⟩
      exact ⟨hentries ▸ htaken, Option.some.inj he⟩
    · intro hneeds
      subst hm
      have hgets : GetsTo inputs (.create web c) r := ⟨done, phase, made, h.isNext, hr⟩
      exact absurd htaken (Registry.find?_eq_none_iff.mp (hgets.find?_eq_none hneeds))

/-- Nothing is built after a phase has failed. -/
theorem Tidy.builtIn_broken {r : Run} (h : Tidy r) (phase : Phase) (e : StartupError) :
    builtIn (r.broken phase e).trace = builtIn r.trace := by
  have halerts : builtIn r.releaseAlerts = [] := by
    unfold Run.releaseAlerts
    dsimp only
    split <;> rfl
  rw [Run.trace_broken h.isOpen, builtIn_append, ← List.singleton_append, builtIn_append,
    builtIn_append, halerts, builtIn_map _ fun _ => rfl, List.append_nil, List.append_nil]
  exact List.append_nil _

end Registered

/-! ## What becomes of it -/

/-- What becomes of everything that a start-up has built that fails with `e`: the components
    `registered` are in the registry, and `lost`, if there is one, could not be put in. -/
structure Accounts (inputs : Inputs) (registered : List (Key × Instance))
    (lost : Option (Key × Instance)) (e : StartupError) (trace : List Entry) : Prop where
  built : builtIn trace = registered ++ lost.toList
  distinct : (registered.map Prod.fst).Nodup
  /-- Whatever is registered and holds something is asked once to give it back. -/
  disposals : disposalsOf trace =
    (registered.reverse.filter (·.2.isDisposable)).map fun entry => (entry.1, entry.2.label)
  /-- The key of the lost component was taken, and that is why the start-up fails. -/
  refused : ∀ entry ∈ lost, entry.1 ∈ registered.map Prod.fst ∧
    e = .dependency (.duplicate entry.1.text)
  /-- If the resolver goes by the needs, then nothing is lost. -/
  byNeeds : inputs.resolver.resolve = Plan.resolve → lost = none

section Accounts

variable {inputs : Inputs} {registered : List (Key × Instance)} {lost : Option (Key × Instance)}
  {e : StartupError} {trace : List Entry}

theorem StopsAt.accounts {done : List Phase} {phase : Phase} {made : List Move} {m : Move} {t : Run}
    (h : StopsAt inputs done phase made m t e) :
    ∃ lost, Accounts inputs t.registry.entries lost e (t.broken phase e).trace := by
  obtain ⟨lost, hbuilt, hrefused, hneeds⟩ := h.builtIn_eq
  have htidy := always_tidy.stops h
  exact ⟨lost, (htidy.builtIn_broken phase e).trans hbuilt, htidy.distinct,
    htidy.disposalsOf_broken phase e, hrefused, hneeds⟩

/-- Nothing escapes if the lost component holds nothing, and only then. -/
theorem Accounts.nothingEscapes_iff (h : Accounts inputs registered lost e trace) :
    NothingEscapes trace ↔ ∀ entry ∈ lost, entry.2.isDisposable = false := by
  have hturned : (disposalsOf trace).Perm ((registered.filter (·.2.isDisposable)).map fun entry =>
      (entry.1, entry.2.label)) := by
    rw [h.disposals, List.filter_reverse]
    exact (List.reverse_perm _).map _
  rw [NothingEscapes, h.built, List.filter_append, List.map_append]
  cases lost with
  | none =>
    rw [Option.toList_none, List.filter_nil, List.map_nil, List.append_nil]
    exact iff_of_true hturned fun _ hentry => (Option.not_mem_none _ hentry).elim
  | some entry =>
    rw [Option.toList_some, List.filter_singleton]
    cases hholds : entry.2.isDisposable with
    | false =>
      rw [cond_false, List.map_nil, List.append_nil]
      exact iff_of_true hturned fun _ hentry => Option.some.inj hentry ▸ hholds
    | true =>
      -- one is asked less than there are
      refine iff_of_false (fun hperm => ?_) fun hnone => ?_
      · have hlen := hturned.symm.length_eq.trans hperm.length_eq
        simp at hlen
      · exact absurd ((hnone entry rfl).symm.trans hholds) Bool.false_ne_true

/-- A component whose key was built before is the lost one. -/
theorem Accounts.mem_lost (h : Accounts inputs registered lost e trace)
    {front back : List (Key × Instance)} {entry : Key × Instance}
    (hsplit : builtIn trace = front ++ entry :: back) (hagain : entry.1 ∈ front.map Prod.fst) :
    entry ∈ lost := by
  have hall := h.built.symm.trans hsplit
  obtain ⟨between, hfront, hlost⟩ | ⟨between, hregistered, hrest⟩ :=
    List.append_eq_append_iff.mp hall
  · -- it stands behind everything that is registered
    have hin : entry ∈ lost.toList := hlost ▸ List.mem_append_right _ (List.mem_cons_self ..)
    exact Option.mem_toList.mp hin
  · cases between with
    | nil =>
      have hin : entry ∈ lost.toList := by
        rw [List.nil_append] at hrest
        exact hrest ▸ List.mem_cons_self ..
      exact Option.mem_toList.mp hin
    | cons first others =>
      -- it is registered itself, and no key is registered twice
      obtain ⟨rfl, -⟩ := List.cons.inj hrest
      have hdistinct := h.distinct
      rw [hregistered, List.map_append, List.map_cons] at hdistinct
      exact absurd rfl
        ((List.nodup_append.mp hdistinct).2.2 entry.1 hagain entry.1 (List.mem_cons_self ..))

end Accounts

/-- A start-up that fails has asked everything that a factory has given back to give back what it
    holds, exactly once, if and only if no component that holds something was built under a key
    under which one had been built before. Such a component is lost. There is one at most, the
    start-up fails because of it, and there is none if the resolver goes by the needs. -/
theorem nothing_escapes_iff {b : Builder} {inForce : Bool} {stopwatch : Stopwatch} {x : Executor}
    {e : StartupError} (hb : b.executor inForce stopwatch = .ok x)
    (hfails : x.execute.2.1 = .error e) :
    (∃ registered lost, Accounts (b.inputs stopwatch) registered lost e x.execute.1) ∧
      (NothingEscapes x.execute.1 ↔ ∀ front entry back,
        builtIn x.execute.1 = front ++ entry :: back → entry.1 ∈ front.map Prod.fst →
          entry.2.isDisposable = false) := by
  obtain rfl := Builder.executor_eq_ok hb
  obtain ⟨r, c, -, -, hrun⟩ | ⟨done, phase, made, m, t, f, hstop, hrun⟩ :=
    execute_cases (b.inputs stopwatch)
  · rw [hrun] at hfails
    cases hfails
  · rw [hrun] at hfails ⊢
    obtain rfl := Except.error.inj hfails
    obtain ⟨lost, h⟩ := hstop.accounts
    refine ⟨⟨_, lost, h⟩, h.nothingEscapes_iff.trans ⟨fun hnone => ?_, fun hnone => ?_⟩⟩
    · exact fun front entry back hsplit hagain => hnone entry (h.mem_lost hsplit hagain)
    · rintro entry hlost
      obtain rfl := Option.mem_def.mp hlost
      exact hnone _ entry [] h.built (h.refused entry rfl).1

/-- Two pools under one key, and a resolver that does not look at keys. -/
def twoPools : Builder :=
  let pool : Definition := ⟨.repository, "shop::Pool", none, [],
    some (Recipe.factory ⟨[], "Pool", some ⟨none, none⟩⟩)⟩
  { Builder.empty with
    roots := ["shop"]
    manifests := [⟨"shop.data", [pool, pool]⟩]
    resolver := .fixed [0, 1]
    source := some (.pool (.ofSize "db" 1)) }

theorem nothing_escapes_iff_twoPools :
    twoPools.executor false .still = .ok (.ofInputs (twoPools.inputs .still)) ∧
      (Executor.ofInputs (twoPools.inputs .still)).execute.2.1 =
        .error (.dependency (.duplicate "Repository:Pool")) ∧
      ∃ registered lost, Accounts (twoPools.inputs .still) registered lost
        (.dependency (.duplicate "Repository:Pool"))
        (Executor.ofInputs (twoPools.inputs .still)).execute.1 := by
  have hb : twoPools.executor false .still = .ok (.ofInputs (twoPools.inputs .still)) := rfl
  have hfails : (Executor.ofInputs (twoPools.inputs .still)).execute.2.1 =
      .error (.dependency (.duplicate "Repository:Pool")) := rfl
  exact ⟨hb, hfails, (nothing_escapes_iff hb hfails).1⟩

/-- Both pools are built, and only one of them is asked to give back what it holds. -/
theorem second_pool_escapes :
    ∃ e, twoPools.executor false .still = .ok (.ofInputs (twoPools.inputs .still)) ∧
      (Executor.ofInputs (twoPools.inputs .still)).execute.2.1 = .error e ∧
      ¬ NothingEscapes (Executor.ofInputs (twoPools.inputs .still)).execute.1 := by
  refine ⟨_, rfl, rfl, fun hperm => ?_⟩
  have hbuilt : ((builtIn (Executor.ofInputs (twoPools.inputs .still)).execute.1).filter
      (·.2.isDisposable)).length = 2 := by decide
  have hasked : (disposalsOf (Executor.ofInputs (twoPools.inputs .still)).execute.1).length = 1 := by
    decide
  have hlen := hperm.length_eq
  rw [List.length_map, hbuilt, hasked] at hlen
  cases hlen

end BootEngine.Startup
