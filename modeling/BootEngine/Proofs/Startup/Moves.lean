import BootEngine.Startup.Run

/-!
# The moves of a run

A phase is a list of moves, made one after another up to the first that fails. Most moves are one
call to something that has been handed to the run, together with what the run does with the answer;
a few only look at what is there or put something aside. A move that makes a call leaves just that
call in the trace, whether it goes well or not.

Contents:
* `each_append`, `each_cases`, `each_keeps`, `each_adds`: going through a list.
* `Call`, `callsOf`: the calls in a trace.
* `Move`, `Move.act`, `Move.calls`: the moves, what they do, and the calls that they make.
* `configure_cases` and its like: everything that a move can do.
* `Move.callsOf_act`: the calls that a move leaves in the trace.
* `Move.report_of_ok`: what a move adds to the report.
-/

namespace BootEngine.Startup

open Component (Key Instance)
open Run (next each)

/-! ## Going through a list -/

section Each

variable {α β : Type} {act : α → Run → Outcome}

@[simp] theorem next_ok (r : Run) (rest : Run → Outcome) : next (r, none) rest = rest r := rfl

@[simp] theorem next_failed (r : Run) (e : StartupError) (rest : Run → Outcome) :
    next (r, some e) rest = (r, some e) := rfl

theorem outcome_cases (o : Outcome) : (∃ s, o = (s, none)) ∨ ∃ s e, o = (s, some e) := by
  obtain ⟨s, _ | e⟩ := o
  · exact .inl ⟨s, rfl⟩
  · exact .inr ⟨s, e, rfl⟩

theorem next_assoc (o : Outcome) (f g : Run → Outcome) :
    next (next o f) g = next o fun r => next (f r) g := by
  obtain ⟨r, _ | e⟩ := o <;> rfl

theorem next_return (o : Outcome) : next o (fun r => (r, none)) = o := by
  obtain ⟨r, _ | e⟩ := o <;> rfl

@[simp] theorem each_nil (r : Run) : each act [] r = (r, none) := rfl

theorem each_cons (a : α) (l : List α) (r : Run) :
    each act (a :: l) r = next (act a r) (each act l) := rfl

@[simp] theorem each_singleton (a : α) (r : Run) : each act [a] r = act a r := next_return _

theorem each_append (l k : List α) (r : Run) :
    each act (l ++ k) r = next (each act l r) (each act k) := by
  induction l generalizing r with
  | nil => rfl
  | cons a l ih =>
    rw [List.cons_append, each_cons, each_cons, next_assoc]
    exact congrArg (next (act a r)) (funext ih)

theorem each_map (f : β → α) (l : List β) (r : Run) :
    each act (l.map f) r = each (fun b => act (f b)) l r := by
  induction l generalizing r with
  | nil => rfl
  | cons b l ih =>
    rw [List.map_cons, each_cons, each_cons]
    exact congrArg (next (act (f b) r)) (funext ih)

theorem each_flatMap (f : β → List α) (l : List β) (r : Run) :
    each act (l.flatMap f) r = each (fun b => each act (f b)) l r := by
  induction l generalizing r with
  | nil => rfl
  | cons b l ih =>
    rw [List.flatMap_cons, each_append, each_cons]
    exact congrArg (next (each act (f b) r)) (funext ih)

/-- Going through a list either comes to its end, or stops at an item that fails. -/
theorem each_cases (l : List α) (r : Run) :
    (∃ s, each act l r = (s, none)) ∨
      ∃ done a rest s t e, l = done ++ a :: rest ∧ each act done r = (s, none) ∧
        act a s = (t, some e) ∧ each act l r = (t, some e) := by
  induction l generalizing r with
  | nil => exact .inl ⟨r, rfl⟩
  | cons a l ih =>
    obtain ⟨s, hs⟩ | ⟨s, e, hs⟩ := outcome_cases (act a r)
    · rw [each_cons, hs, next_ok]
      obtain hend | ⟨done, b, rest, t, u, e, rfl, hdone, hb, hl⟩ := ih s
      · exact .inl hend
      · refine .inr ⟨a :: done, b, rest, t, u, e, rfl, ?_, hb, hl⟩
        rw [each_cons, hs, next_ok, hdone]
    · refine .inr ⟨[], a, l, r, s, e, rfl, rfl, hs, ?_⟩
      rw [each_cons, hs, next_failed]

/-- What every item keeps is kept, however far one comes. -/
theorem each_keeps {P : Run → Prop} {l : List α} (h : ∀ a ∈ l, ∀ r, P r → P (act a r).1) {r : Run}
    (hr : P r) : P (each act l r).1 := by
  induction l generalizing r with
  | nil => exact hr
  | cons a l ih =>
    have ha := h a (List.mem_cons_self ..) r hr
    rw [each_cons]
    obtain ⟨s, hs⟩ | ⟨s, e, hs⟩ := outcome_cases (act a r) <;> rw [hs] at ha ⊢
    · exact ih (fun b hb => h b (List.mem_cons_of_mem _ hb)) ha
    · exact ha

/-- If every item that goes well adds something of its own, then they add it all, in order. -/
theorem each_adds {γ : Type} {seen : Run → List γ} {added : α → List γ} {l : List α}
    (h : ∀ a ∈ l, ∀ r s, act a r = (s, none) → seen s = seen r ++ added a) {r s : Run}
    (hs : each act l r = (s, none)) : seen s = seen r ++ l.flatMap added := by
  induction l generalizing r with
  | nil =>
    cases hs
    rw [List.flatMap_nil, List.append_nil]
  | cons a l ih =>
    rw [each_cons] at hs
    obtain ⟨t, ha⟩ | ⟨t, e, ha⟩ := outcome_cases (act a r)
    · rw [ha, next_ok] at hs
      have hfirst := h a (List.mem_cons_self ..) r t ha
      have hrest := ih (fun b hb => h b (List.mem_cons_of_mem _ hb)) hs
      rw [hrest, hfirst, List.flatMap_cons, List.append_assoc]
    · rw [ha] at hs
      cases hs

/-- One comes through a list in two goes. -/
theorem each_append_eq_ok {l k : List α} {r s : Run} (h : each act (l ++ k) r = (s, none)) :
    ∃ t, each act l r = (t, none) ∧ each act k t = (s, none) := by
  rw [each_append] at h
  obtain ⟨t, ht⟩ | ⟨t, e, ht⟩ := outcome_cases (each act l r)
  · rw [ht, next_ok] at h
    exact ⟨t, ht, h⟩
  · rw [ht] at h
    cases h

end Each

/-! ## Calls -/

/-- A call of a run to something that has been handed to it. -/
inductive Call where
  | started (listener : String) (phase : Phase)
  | completed (listener : String) (phase : Phase)
  | provide (feature : String)
  | scan (scanner : String)
  | resolve
  | create (key : Key)
  | bind (key : Key)
  | ready (feature : String)
  deriving DecidableEq, Repr

/-- The call that an entry of a trace stands for. -/
def Entry.call? : Entry → Option Call
  | .phaseStarted listener phase => some (.started listener phase)
  | .phaseCompleted listener phase => some (.completed listener phase)
  | .provide feature _ => some (.provide feature)
  | .scan scanner _ _ => some (.scan scanner)
  | .resolve .. => some .resolve
  | .create key => some (.create key)
  | .bind key _ => some (.bind key)
  | .ready feature _ => some (.ready feature)
  | _ => none

/-- The calls in a trace, in order. -/
def callsOf (trace : List Entry) : List Call := trace.filterMap Entry.call?

@[simp] theorem callsOf_append (t u : List Entry) : callsOf (t ++ u) = callsOf t ++ callsOf u :=
  List.filterMap_append

theorem callsOf_eq_nil {t : List Entry} (h : ∀ e ∈ t, e.call? = none) : callsOf t = [] :=
  List.filterMap_eq_nil_iff.mpr h

/-! ## Moves -/

/-- A move of a run. -/
inductive Move where
  | configure
  | registerCore
  /-- Looks whether the identifier of a feature is new. -/
  | vet (seen : List String) (f : Feature)
  | provide (f : Feature)
  | scan (s : Scanner)
  | order
  | setAside (registration : Registration)
  /-- Builds a component, in the web layer or outside it. -/
  | create (web : Bool) (registration : Registration)
  /-- Takes up what has been set aside. -/
  | takeUp
  | bind (binder : Binder) (key : Key)
  | ready (f : Feature)
  | check

/-- The phase in which components are built, in the web layer or outside it. -/
def Phase.ofLayer (web : Bool) : Phase :=
  if web then .routeRegistration else .componentRegistration

/-- Asks a feature that is not left out for its components. -/
def askFeature (f : Feature) (r : Run) : Outcome :=
  next (each (collect f.id) f.provides (r.note [.provide f.id f.quiet])) fun r =>
    ({ r with active := r.active ++ [f] }, none)

/-- The components of a list in the order of a resolver, if it has one for all of them. -/
def Resolver.arrange? (resolver : Resolver) (registrations : List Registration) :
    Option (List Registration) :=
  (resolver.resolve (registrations.map (·.descriptor))).toOption.bind
    fun plan => plan.arrange? registrations

/-- Has what has been collected ordered. -/
def orderCollected (r : Run) : Outcome :=
  let descriptors := r.pending.map (·.descriptor)
  let r := r.note [.resolve descriptors r.inputs.resolver.quiet]
  match r.inputs.resolver.resolve descriptors with
  | .error e => (r, some (.dependency e))
  | .ok plan =>
    match plan.arrange? r.pending with
    | none => ({ r with pending := [] }, some (misplanned descriptors.length plan.order.length))
    | some _ => ({ r with pending := [] }, none)

namespace Move

/-- What a move does. -/
def act : Move → Run → Outcome
  | .configure, r => Startup.configure r
  | .registerCore, r => Startup.registerCore r
  | .vet seen f, r =>
    (r, if seen.contains f.id then some (.featureFailed f.id "特性ID重复") else none)
  | .provide f, r => askFeature f r
  | .scan s, r => scanWith s r
  | .order, r => orderCollected r
  | .setAside registration, r => ({ r with web := r.web ++ [registration] }, none)
  | .create web registration, r => instantiate (.ofLayer web) registration r
  | .takeUp, r => ({ r with web := [] }, none)
  | .bind binder key, r => bindRoute binder key r
  | .ready f, r => notify f r
  | .check, r => checkRegistered r

/-- The call that a move makes, if it makes one. -/
def calls : Move → List Call
  | .provide f => [.provide f.id]
  | .scan s => [.scan s.name]
  | .order => [.resolve]
  | .create _ registration => [.create registration.descriptor.key]
  | .bind _ key => [.bind key]
  | .ready f => [.ready f.id]
  | _ => []

/-- The phase that a move belongs to. -/
def phase : Move → Phase
  | .configure => .configuration
  | .registerCore => .coreInfrastructure
  | .vet .. => .featureRegistration
  | .provide _ => .featureRegistration
  | .scan _ => .componentRegistration
  | .order => .componentRegistration
  | .setAside _ => .componentRegistration
  | .create web _ => .ofLayer web
  | .takeUp => .routeRegistration
  | .bind .. => .routeRegistration
  | .ready _ => .featureReady
  | .check => .validation

/-- The component that a move builds, if it builds one. -/
def created? : Move → Option Registration
  | .create _ registration => some registration
  | _ => none

/-- A component that a move hands to the binder has been registered. -/
def IsServed (r : Run) (m : Move) : Prop :=
  ∀ binder key, m = .bind binder key → ∃ item, r.registry.get key.kind (some key.name) = .ok item

end Move

/-! ## What moves can do -/

section Cases

variable (r : Run)

theorem configure_cases :
    (∃ e, Settings.load r.inputs.config = .error e ∧ configure r = (r, some (.settings e))) ∨
      ∃ settings, Settings.load r.inputs.config = .ok settings ∧
        configure r =
          ({ r with settings, roots := settings.roots.foldl addRoot r.roots }, none) := by
  unfold configure
  cases Settings.load r.inputs.config with
  | error e => exact .inl ⟨e, rfl, rfl⟩
  | ok settings => exact .inr ⟨settings, rfl, rfl⟩

/-- The state after a data source and its coordinator have been registered. -/
def Run.equipped (source : Transaction.Source) (r : Run) : Run :=
  let coordinator : Transaction.Coordinator := ⟨source.name, r.settings.acquireLimit⟩
  { r with
    coordinator := some coordinator
    registry := { r.registry with
      dataSource := some source.name, coordinator := some coordinator } }

theorem registerCore_cases :
    (∃ e, r.inputs.source = none ∧ registerCore r = (r, some e)) ∨
      ∃ source, r.inputs.source = some source ∧ registerCore r = (r.equipped source, none) := by
  unfold registerCore
  cases r.inputs.source with
  | none => exact .inl ⟨_, rfl, rfl⟩
  | some source => exact .inr ⟨source, rfl, rfl⟩

/-- The registrations of definitions, or the failure of the first that has none. -/
def registrationsOf (id : String) (definitions : List Definition) :
    Except DiscoveryError (List Registration) :=
  definitions.mapM fun d => d.register (.feature id)

theorem eachCollect_cases (id : String) (definitions : List Definition) :
    (∃ part e, registrationsOf id definitions = .error e ∧
        each (collect id) definitions r =
          ({ r with pending := r.pending ++ part }, some (.discovery e))) ∨
      ∃ registrations, registrationsOf id definitions = .ok registrations ∧
        each (collect id) definitions r =
          ({ r with pending := r.pending ++ registrations }, none) := by
  induction definitions generalizing r with
  | nil => exact .inr ⟨[], rfl, by rw [List.append_nil]; rfl⟩
  | cons d definitions ih =>
    rw [each_cons, collect, registrationsOf, List.mapM_cons]
    cases d.register (.feature id) with
    | error e => exact .inl ⟨[], e, rfl, by rw [List.append_nil]; rfl⟩
    | ok registration =>
      obtain ⟨part, e, hnone, heq⟩ | ⟨others, hothers, heq⟩ :=
        ih { r with pending := r.pending ++ [registration] }
      · refine .inl ⟨registration :: part, e, ?_, ?_⟩
        · exact congrArg (Except.map _) hnone
        · rw [next_ok, heq, List.append_assoc]
          rfl
      · refine .inr ⟨registration :: others, ?_, ?_⟩
        · exact congrArg (Except.map (List.cons registration)) hothers
        · rw [next_ok, heq, List.append_assoc]
          rfl

/-- The registrations of what a feature provides. -/
def Feature.registrations (f : Feature) : Except DiscoveryError (List Registration) :=
  registrationsOf f.id f.provides

theorem askFeature_cases (f : Feature) :
    (∃ part e, f.registrations = .error e ∧
        askFeature f r =
          ({ r.note [.provide f.id f.quiet] with pending := r.pending ++ part },
            some (.discovery e))) ∨
      ∃ registrations, f.registrations = .ok registrations ∧
        askFeature f r =
          ({ r.note [.provide f.id f.quiet] with
              pending := r.pending ++ registrations, active := r.active ++ [f] }, none) := by
  unfold askFeature
  obtain ⟨part, e, hnone, heq⟩ | ⟨registrations, hok, heq⟩ :=
    eachCollect_cases (r.note [.provide f.id f.quiet]) f.id f.provides
  · exact .inl ⟨part, e, hnone, by rw [heq]; rfl⟩
  · exact .inr ⟨registrations, hok, by rw [heq]; rfl⟩

/-- What a scanner adds to the trace of a run. -/
def Scanner.entries (s : Scanner) (roots : List String) : List Entry :=
  .scan s.name roots s.quiet :: (s.scan roots).1.map .alert

theorem scanWith_cases (s : Scanner) :
    (∃ e, (s.scan r.roots).2 = .error e ∧
        scanWith s r = (r.note (s.entries r.roots), some (.discovery e))) ∨
      ∃ found, (s.scan r.roots).2 = .ok found ∧
        scanWith s r =
          ({ r.note (s.entries r.roots) with pending := r.pending ++ found }, none) := by
  unfold scanWith
  dsimp only
  cases hscan : (s.scan r.roots).2 with
  | error e => exact .inl ⟨e, rfl, rfl⟩
  | ok found => exact .inr ⟨found, rfl, rfl⟩

/-- What the resolver adds to the trace of a run. -/
def Run.resolveEntries (r : Run) : List Entry :=
  [.resolve (r.pending.map (·.descriptor)) r.inputs.resolver.quiet]

theorem orderCollected_cases :
    (∃ pending e, r.inputs.resolver.arrange? r.pending = none ∧
        orderCollected r = ({ r.note r.resolveEntries with pending }, some e)) ∨
      ∃ ordered, r.inputs.resolver.arrange? r.pending = some ordered ∧
        orderCollected r = ({ r.note r.resolveEntries with pending := [] }, none) := by
  unfold orderCollected Resolver.arrange?
  dsimp only [Run.note]
  cases hplan : r.inputs.resolver.resolve (r.pending.map (·.descriptor)) with
  | error e => exact .inl ⟨r.pending, _, rfl, rfl⟩
  | ok plan =>
    dsimp only [Except.toOption, Option.bind_some]
    cases harranged : plan.arrange? r.pending with
    | none => exact .inl ⟨[], _, rfl, rfl⟩
    | some ordered => exact .inr ⟨ordered, rfl, rfl⟩

/-- What a component sees while it is built in some state of a run. -/
def Run.view (registration : Registration) (r : Run) : Injection :=
  ⟨registration.descriptor, r.registry,
    r.settings.component? registration.descriptor.key.name⟩

/-- What a factory adds to the trace of a run before it returns. -/
def Run.createEntries (registration : Registration) (r : Run) : List Entry :=
  .create registration.descriptor.key ::
    (registration.factory (r.view registration)).1.map fun found =>
      .found registration.descriptor.key found.1 found.2

/-- The state after a component has been built and registered. -/
def Run.published (phase : Phase) (registration : Registration) (item : Instance) (r : Run) : Run :=
  { r with
    registry := { r.registry with
      entries := r.registry.entries ++ [(registration.descriptor.key, item)] }
    report := { r.report with
      components := r.report.components ++
        [⟨registration.descriptor.key, registration.descriptor.typeName, phase⟩] }
    trace := r.trace ++ r.createEntries registration ++
      [.built registration.descriptor.key item] }

theorem instantiate_cases (phase : Phase) (registration : Registration) :
    (∃ e, (registration.factory (r.view registration)).2 = .error e ∧
        instantiate phase registration r =
          (r.note (r.createEntries registration), some (.dependency e))) ∨
      (∃ item e, (registration.factory (r.view registration)).2 = .ok item ∧
        (r.registry.find? registration.descriptor.key).isSome ∧
        instantiate phase registration r =
          ((r.note (r.createEntries registration)).note [.built registration.descriptor.key item],
            some (.dependency e))) ∨
      ∃ item, (registration.factory (r.view registration)).2 = .ok item ∧
        r.registry.find? registration.descriptor.key = none ∧
        instantiate phase registration r = (r.published phase registration item, none) := by
  unfold instantiate
  dsimp only
  cases hmade : (registration.factory (r.view registration)).2 with
  | error e =>
    refine .inl ⟨e, rfl, ?_⟩
    rw [show (registration.factory ⟨registration.descriptor, r.registry,
      r.settings.component? registration.descriptor.key.name⟩).2 = .error e from hmade]
    rfl
  | ok item =>
    rw [show (registration.factory ⟨registration.descriptor, r.registry,
      r.settings.component? registration.descriptor.key.name⟩).2 = .ok item from hmade]
    dsimp only [Run.note, Registry.insert]
    cases hfind : r.registry.find? registration.descriptor.key with
    | some other => exact .inr (.inl ⟨item, _, rfl, rfl, rfl⟩)
    | none => exact .inr (.inr ⟨item, rfl, rfl, rfl⟩)

theorem bindRoute_cases (binder : Binder) (key : Key) :
    (∃ e, r.registry.get key.kind (some key.name) = .error e ∧
        bindRoute binder key r = (r, some (.dependency e))) ∨
      ∃ item, r.registry.get key.kind (some key.name) = .ok item ∧
        ((∃ e, bindRoute binder key r = (r.note [.bind key item], some e)) ∨
          binder key item = .ok () ∧ bindRoute binder key r = (r.note [.bind key item], none)) := by
  unfold bindRoute
  cases r.registry.get key.kind (some key.name) with
  | error e => exact .inl ⟨e, rfl, rfl⟩
  | ok item =>
    refine .inr ⟨item, rfl, ?_⟩
    dsimp only
    cases binder key item with
    | error reason => exact .inl ⟨_, rfl⟩
    | ok _ => exact .inr ⟨rfl, rfl⟩

/-- What a feature adds to the trace of a run when it is told that everything is ready. -/
def Run.readyEntries (f : Feature) (r : Run) : List Entry :=
  .ready f.id f.quiet :: (f.ready r.registry).1.map (.asked f.id)

/-- The state after a feature has been told that everything is ready. -/
def Run.told (f : Feature) (r : Run) : Run :=
  { r.note (r.readyEntries f) with
    report := { r.report with featuresReady := r.report.featuresReady ++ [f.id] } }

theorem notify_cases (f : Feature) :
    (∃ e, (f.ready r.registry).2 = .error e ∧
        notify f r = (r.note (r.readyEntries f), some (.featureFailed f.id e.message))) ∨
      (f.ready r.registry).2 = .ok () ∧ notify f r = (r.told f, none) := by
  unfold notify
  dsimp only
  cases (f.ready r.registry).2 with
  | error e => exact .inl ⟨e, rfl, rfl⟩
  | ok _ => exact .inr ⟨rfl, rfl⟩

theorem checkRegistered_cases :
    ∃ (alerts : List Alert) (o : Option StartupError),
      checkRegistered r = (r.note (alerts.map .alert), o) := by
  unfold checkRegistered
  dsimp only
  cases (validate r.registry r.report.components).2 with
  | error e => exact ⟨_, some e, rfl⟩
  | ok _ => exact ⟨_, none, rfl⟩

end Cases

/-! ## The calls of moves -/

theorem callsOf_alerts (alerts : List Alert) : callsOf (alerts.map .alert) = [] := by
  refine callsOf_eq_nil fun e he => ?_
  obtain ⟨a, -, rfl⟩ := List.mem_map.mp he
  rfl

theorem callsOf_scan (s : Scanner) (roots : List String) :
    callsOf (s.entries roots) = [.scan s.name] :=
  congrArg (List.cons (Call.scan s.name)) (callsOf_alerts _)

theorem callsOf_create (r : Run) (registration : Registration) :
    callsOf (r.createEntries registration) = [.create registration.descriptor.key] := by
  refine congrArg (List.cons (Call.create registration.descriptor.key)) (callsOf_eq_nil ?_)
  intro e he
  obtain ⟨found, -, rfl⟩ := List.mem_map.mp he
  rfl

theorem callsOf_ready (r : Run) (f : Feature) : callsOf (r.readyEntries f) = [.ready f.id] := by
  refine congrArg (List.cons (Call.ready f.id)) (callsOf_eq_nil ?_)
  intro e he
  obtain ⟨answer, -, rfl⟩ := List.mem_map.mp he
  rfl

/-- A move leaves its call in the trace, whether it goes well or not. -/
theorem Move.callsOf_act {m : Move} {r : Run} (hm : m.IsServed r) :
    callsOf (m.act r).1.trace = callsOf r.trace ++ m.calls := by
  cases m with
  | configure =>
    obtain ⟨e, -, h⟩ | ⟨settings, -, h⟩ := configure_cases r <;> rw [act, h] <;>
      exact (List.append_nil _).symm
  | registerCore =>
    obtain ⟨e, -, h⟩ | ⟨source, -, h⟩ := registerCore_cases r <;> rw [act, h] <;>
      exact (List.append_nil _).symm
  | vet seen f => exact (List.append_nil _).symm
  | provide f =>
    obtain ⟨part, e, -, h⟩ | ⟨registrations, -, h⟩ := askFeature_cases r f <;>
      rw [act, h] <;> exact callsOf_append _ _
  | scan s =>
    obtain ⟨e, -, h⟩ | ⟨found, -, h⟩ := scanWith_cases r s <;>
      rw [act, h, calls, ← callsOf_scan] <;>
      exact callsOf_append _ _
  | order =>
    obtain ⟨pending, e, -, h⟩ | ⟨ordered, -, h⟩ := orderCollected_cases r <;> rw [act, h] <;>
      exact callsOf_append _ _
  | setAside registration => exact (List.append_nil _).symm
  | create web registration =>
    rw [act, calls, ← callsOf_create r]
    obtain ⟨e, -, h⟩ | ⟨item, e, -, -, h⟩ | ⟨item, -, -, h⟩ :=
      instantiate_cases r (.ofLayer web) registration
    · rw [h]
      exact callsOf_append _ _
    · rw [h, Run.note, Run.note, callsOf_append, callsOf_append]
      exact List.append_nil _
    · rw [h, Run.published, callsOf_append, callsOf_append]
      exact List.append_nil _
  | takeUp => exact (List.append_nil _).symm
  | bind binder key =>
    obtain ⟨item, hitem⟩ := hm binder key rfl
    obtain ⟨e, he, -⟩ | ⟨other, -, ⟨e, h⟩ | ⟨-, h⟩⟩ := bindRoute_cases r binder key
    · rw [hitem] at he
      cases he
    · rw [act, h]
      exact callsOf_append _ _
    · rw [act, h]
      exact callsOf_append _ _
  | ready f =>
    obtain ⟨e, -, h⟩ | ⟨-, h⟩ := notify_cases r f <;> rw [act, h, calls, ← callsOf_ready r] <;>
      exact callsOf_append _ _
  | check =>
    obtain ⟨alerts, o, h⟩ := checkRegistered_cases r
    rw [act, h, show check.calls = callsOf (alerts.map .alert) from (callsOf_alerts alerts).symm]
    exact callsOf_append _ _

/-- A move that goes well leaves its call in the trace. -/
theorem Move.callsOf_of_ok {m : Move} {r s : Run} (h : m.act r = (s, none)) :
    callsOf s.trace = callsOf r.trace ++ m.calls := by
  have hserved : m.IsServed r := by
    rintro binder key rfl
    obtain ⟨e, -, hb⟩ | ⟨item, hitem, -⟩ := bindRoute_cases r binder key
    · rw [act, hb] at h
      cases h
    · exact ⟨item, hitem⟩
  have hcalls := callsOf_act hserved
  rwa [h] at hcalls

/-! ## What moves report -/

/-- The entry of the report for what a move builds. -/
def Move.registered (m : Move) : List Registered :=
  m.created?.toList.map fun c => ⟨c.descriptor.key, c.descriptor.typeName, m.phase⟩

/-- The feature that a move tells that everything is ready. -/
def Move.told : Move → List String
  | .ready f => [f.id]
  | _ => []

/-- A move that goes well reports what it has built and whom it has told. -/
theorem Move.report_of_ok {m : Move} {r s : Run} (h : m.act r = (s, none)) :
    s.report = { r.report with
      components := r.report.components ++ m.registered
      featuresReady := r.report.featuresReady ++ m.told } := by
  have hsame : r.report = { r.report with
      components := r.report.components ++ []
      featuresReady := r.report.featuresReady ++ [] } := by
    rw [List.append_nil, List.append_nil]
  cases m with
  | create web c =>
    obtain ⟨e, -, hm⟩ | ⟨item, e, -, -, hm⟩ | ⟨item, -, -, hm⟩ :=
      instantiate_cases r (.ofLayer web) c
    · cases hm.symm.trans h
    · cases hm.symm.trans h
    · cases hm.symm.trans h
      simp only [told, List.append_nil]
      rfl
  | ready f =>
    obtain ⟨e, -, hm⟩ | ⟨-, hm⟩ := notify_cases r f
    · cases hm.symm.trans h
    · cases hm.symm.trans h
      simp only [registered, created?, Option.toList_none, List.map_nil, List.append_nil]
      rfl
  | configure =>
    obtain ⟨e, -, hm⟩ | ⟨settings, -, hm⟩ := configure_cases r <;> cases hm.symm.trans h
    exact hsame
  | registerCore =>
    obtain ⟨e, -, hm⟩ | ⟨source, -, hm⟩ := registerCore_cases r <;> cases hm.symm.trans h
    exact hsame
  | vet seen f =>
    obtain ⟨rfl, -⟩ := Prod.mk.inj h
    exact hsame
  | provide f =>
    obtain ⟨part, e, -, hm⟩ | ⟨registrations, -, hm⟩ := askFeature_cases r f <;>
      cases hm.symm.trans h
    exact hsame
  | scan s =>
    obtain ⟨e, -, hm⟩ | ⟨found, -, hm⟩ := scanWith_cases r s <;> cases hm.symm.trans h
    exact hsame
  | order =>
    obtain ⟨pending, e, -, hm⟩ | ⟨ordered, -, hm⟩ := orderCollected_cases r <;>
      cases hm.symm.trans h
    exact hsame
  | setAside c =>
    cases h
    exact hsame
  | takeUp =>
    cases h
    exact hsame
  | bind binder key =>
    obtain ⟨e, -, hm⟩ | ⟨item, -, ⟨e, hm⟩ | ⟨-, hm⟩⟩ := bindRoute_cases r binder key <;>
      cases hm.symm.trans h
    exact hsame
  | check =>
    obtain ⟨alerts, o, hm⟩ := checkRegistered_cases r
    cases hm.symm.trans h
    exact hsame

end BootEngine.Startup
