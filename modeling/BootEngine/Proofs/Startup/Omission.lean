import BootEngine.Construction.Recipe
import BootEngine.Proofs.Settings.Folding
import BootEngine.Proofs.Startup.Stages

/-!
# Features that are left out

A feature that the settings leave out is as good as not there. The run is looked at beside the run
of the same inputs without those features, with settings that leave none out: the two make the same
moves, apart from those that look at a feature that is left out, and these change nothing. So the
second run is the first one recast, state by state.

Contents:
* `Run.recast`: a state of the one run as a state of the other.
* `Move.act_recast`, `eachAdmission_recast`: moves side by side.
* `Omission.runPhases_recast`, `Omission.execute_recast`: phases and whole runs side by side.
* `Settings.load_omitting`: settings whose last document says which features to leave out.
* `omitted_is_absent`: a start-up with features left out, and one without them.
-/

namespace BootEngine

/-! ## Settings that leave features out -/

/-- The same settings, but for the features to leave out. -/
def Settings.omitting (ids : List String) (s : Settings) : Settings := { s with disabled := ids }

/-- A document that says which features to leave out. -/
def ConfigSource.omitting (ids : List String) : ConfigSource :=
  .file [("features", .table [("disabled", .list (ids.map .text))])]

section Settings

open Lenient

/-- Texts are read as they are. -/
theorem itemsFrom_texts (place : Nat) (ids : List String) :
    itemsFrom text place (Tree.ofValues (ids.map .text)) = .ok ids := by
  induction ids generalizing place with
  | nil => rfl
  | cons id rest ih =>
    rw [List.map_cons, Tree.ofValues, itemsFrom, ih]
    rfl

/-- A document that says which features to leave out says just that. -/
theorem putOnto_omitting (t : Tree) (ids : List String) :
    ∃ u, ConfigSource.putOnto t (.omitting ids) = .ok u ∧
      part u "features" (single "FeatureSettings" "disabled" (listOf text) []) [] = .ok ids ∧
        ∀ name ≠ "features", Table.get? u.entries name = Table.get? t.entries name := by
  have hpath : Path.ofText "features" = [.entry "features"] := by decide
  have hname : Text.lowerCase "disabled" = "disabled" := by decide
  refine ⟨_, rfl, ?_, fun name hne => ?_⟩
  · have hfeatures := @Tree.get?_putAll t "features" "features"
      (.table [("disabled", .list (ids.map .text))]) [] [] hpath (by simp) (by simp)
    rw [List.nil_append, Tree.ofValue, Tree.merge, Tree.ofEntries, Tree.ofEntries,
      Tree.mergeEntries, hname, Tree.mergeEntries] at hfeatures
    rw [part, hfeatures]
    dsimp only
    rw [single, Table.get?_insert_self, Tree.ofValue, Tree.merge_list]
    dsimp only [listOf]
    rw [itemsFrom_texts]
    rfl
  · exact Tree.get?_putAll_of_ne (by simp [hpath, Ne.symm hne])

/-- Trees that agree elsewhere make the same settings, but for the features to leave out. -/
theorem readTree_omitting {t u : Tree} {ids others : List String}
    (h : ∀ name ≠ "features", Table.get? t.entries name = Table.get? u.entries name)
    (ht : part t "features" (single "FeatureSettings" "disabled" (listOf text) []) [] = .ok ids)
    (hu : part u "features" (single "FeatureSettings" "disabled" (listOf text) []) [] =
      .ok others) :
    Settings.readTree t = (Settings.readTree u).map (Settings.omitting ids) := by
  have hpart : ∀ {α : Type} (name : String) (read : Reader α) (default : α), name ≠ "features" →
      part t name read default = part u name read default := by
    intro α name read default hne
    rw [part, part, h name hne]
  unfold Settings.readTree
  rw [ht, hu, hpart "scan" _ _ (by decide), hpart "transaction" _ _ (by decide),
    hpart "shutdown" _ _ (by decide), hpart "components" _ _ (by decide)]
  cases part u "scan" (single "ScanSettings" "namespaces" (listOf text) []) [] with
  | error fault => rfl
  | ok roots =>
    cases part u "transaction"
        (single "TransactionSettings" "acquire_timeout_ms" (Lenient.optional natural) none)
        none with
    | error fault => rfl
    | ok acquireLimit =>
      cases part u "shutdown"
          (single "ShutdownSettings" "dispose_timeout_ms" natural Settings.standard.disposeLimit)
          Settings.standard.disposeLimit with
      | error fault => rfl
      | ok disposeLimit => cases part u "components" sections [] <;> rfl

/-- Settings make sense whatever features they leave out. -/
theorem ofTree_omitting {t u : Tree} {ids : List String}
    (h : Settings.readTree t = (Settings.readTree u).map (Settings.omitting ids)) :
    Settings.ofTree t = (Settings.ofTree u).map (Settings.omitting ids) := by
  unfold Settings.ofTree
  rw [h]
  cases Settings.readTree u with
  | error fault => rfl
  | ok s =>
    have hvalid : (s.omitting ids).validate = s.validate := rfl
    dsimp only [Except.map]
    rw [hvalid]
    cases s.validate <;> rfl

/-- The settings when one more source comes last. -/
theorem load_concat (sources : List ConfigSource) (source : ConfigSource) :
    Settings.load (sources ++ [source]) =
      match gather sources with
      | .error message => .error (.unreadable message)
      | .ok t =>
        match source.putOnto t with
        | .error message => .error (.unreadable message)
        | .ok u => Settings.ofTree u := by
  unfold Settings.load gather
  rw [List.foldlM_append]
  cases sources.foldlM ConfigSource.putOnto Tree.empty with
  | error message => rfl
  | ok t =>
    change (match source.putOnto t >>= pure with | .error message => _ | .ok u => _) = _
    rw [bind_pure]

/-- If the last document says which features to leave out, it decides that alone, and it decides
    nothing else. -/
theorem load_omitting (sources : List ConfigSource) (ids others : List String) :
    Settings.load (sources ++ [.omitting ids]) =
      (Settings.load (sources ++ [.omitting others])).map (Settings.omitting ids) := by
  rw [load_concat, load_concat]
  cases gather sources with
  | error message => rfl
  | ok t =>
    obtain ⟨u, hu, hids, hkept⟩ := putOnto_omitting t ids
    obtain ⟨v, hv, hothers, hkept'⟩ := putOnto_omitting t others
    dsimp only
    rw [hu, hv]
    exact ofTree_omitting (readTree_omitting
      (fun name hne => (hkept name hne).trans (hkept' name hne).symm) hids hothers)

/-- It leaves out what it says. -/
theorem disabled_of_load {sources : List ConfigSource} {ids : List String} {s : Settings}
    (h : Settings.load (sources ++ [.omitting ids]) = .ok s) : s.disabled = ids := by
  have hself := load_omitting sources ids ids
  rw [h] at hself
  exact congrArg Settings.disabled (Except.ok.inj hself)

end Settings

namespace Startup

open Run (next each)

/-! ## Moves side by side -/

/-- The same report with the readings of another clock. -/
def Report.retimed (stopwatch : Stopwatch) (r : Report) : Report :=
  { r with
    startedAt := stopwatch.startedAt
    completedAt := r.completedAt.map fun _ => stopwatch.completedAt
    phases := r.phases.map fun t => ⟨t.phase, stopwatch.phaseTime t.phase⟩ }

/-- The same state in a run of other inputs, which have features, sources of settings and a clock of
    their own and leave no feature out. -/
def Run.recast (other : Inputs) (r : Run) : Run :=
  { r with
    inputs := { r.inputs with
      features := other.features, config := other.config, stopwatch := other.stopwatch }
    settings := r.settings.omitting []
    report := r.report.retimed other.stopwatch }

/-- The same end of a part of a run. -/
def recastOutcome (other : Inputs) (o : Outcome) : Outcome := (o.1.recast other, o.2)

section Moves

variable {other : Inputs} {r : Run}

theorem next_recast {o : Outcome} {f g : Run → Outcome}
    (h : ∀ s, o = (s, none) → g (s.recast other) = recastOutcome other (f s)) :
    next (recastOutcome other o) g = recastOutcome other (next o f) := by
  obtain ⟨s, _ | e⟩ := o
  · exact h s rfl
  · rfl

theorem each_recast {α : Type} {act act' : α → Run → Outcome} {l : List α}
    (h : ∀ a ∈ l, ∀ r, act' a (r.recast other) = recastOutcome other (act a r)) (r : Run) :
    each act' l (r.recast other) = recastOutcome other (each act l r) := by
  induction l generalizing r with
  | nil => rfl
  | cons a l ih =>
    rw [each_cons, each_cons, h a (List.mem_cons_self ..)]
    exact next_recast fun s _ => ih (fun b hb => h b (List.mem_cons_of_mem _ hb)) s

theorem instantiate_recast (phase : Phase) (c : Registration) (r : Run) :
    instantiate phase c (r.recast other) = recastOutcome other (instantiate phase c r) := by
  have hsection : (r.settings.omitting []).component? = r.settings.component? := rfl
  dsimp only [instantiate, Run.note, Run.recast]
  rw [hsection]
  cases (c.factory ⟨c.descriptor, r.registry, r.settings.component? c.descriptor.key.name⟩).2 with
  | error e => rfl
  | ok item =>
    dsimp only
    cases r.registry.insert c.descriptor.key item <;> rfl

theorem collect_recast (id : String) (d : Definition) (r : Run) :
    collect id d (r.recast other) = recastOutcome other (collect id d r) := by
  unfold collect
  cases d.register (.feature id) <;> rfl

theorem askFeature_recast (f : Feature) (r : Run) :
    askFeature f (r.recast other) = recastOutcome other (askFeature f r) := by
  unfold askFeature
  change next (each (collect f.id) f.provides ((r.note [.provide f.id f.quiet]).recast other)) _ = _
  rw [each_recast fun d _ => collect_recast f.id d]
  exact next_recast fun _ _ => rfl

theorem orderCollected_recast (r : Run) :
    orderCollected (r.recast other) = recastOutcome other (orderCollected r) := by
  dsimp only [orderCollected, Run.note, Run.recast]
  cases r.inputs.resolver.resolve (r.pending.map (·.descriptor)) with
  | error e => rfl
  | ok plan =>
    dsimp only
    cases plan.arrange? r.pending <;> rfl

theorem bindRoute_recast (binder : Binder) (key : Component.Key) (r : Run) :
    bindRoute binder key (r.recast other) = recastOutcome other (bindRoute binder key r) := by
  dsimp only [bindRoute, Run.note, Run.recast]
  cases r.registry.get key.kind (some key.name) with
  | error e => rfl
  | ok item =>
    dsimp only
    cases binder key item <;> rfl

/-- All moves but the reading of the settings go by what the two runs have in common. -/
theorem Move.act_recast {m : Move} (hm : m ≠ .configure) (r : Run) :
    m.act (r.recast other) = recastOutcome other (m.act r) := by
  cases m with
  | configure => exact absurd rfl hm
  | registerCore =>
    have hsource : (r.recast other).inputs.source = r.inputs.source := rfl
    dsimp only [Move.act, Startup.registerCore]
    rw [hsource]
    cases r.inputs.source <;> rfl
  | vet seen f => rfl
  | provide f => exact askFeature_recast f r
  | scan s =>
    dsimp only [Move.act, scanWith, Run.note, Run.recast]
    cases (s.scan r.roots).2 <;> rfl
  | order => exact orderCollected_recast r
  | setAside c => rfl
  | create web c => exact instantiate_recast _ c r
  | takeUp => rfl
  | bind binder key => exact bindRoute_recast binder key r
  | ready f =>
    dsimp only [Move.act, notify, Run.note, Run.recast]
    cases (f.ready r.registry).2 <;> rfl
  | check =>
    dsimp only [Move.act, checkRegistered, Run.note, Run.recast, Report.retimed]
    cases (validate r.registry r.report.components).2 <;> rfl

/-- The moves for the features: those of features that are left out change nothing. -/
theorem eachAdmission_recast {settings : Settings} {features : List Feature}
    {seen seen' : List String} (hids : (features.map (·.id)).Nodup)
    (hseen : ∀ f ∈ features, f.id ∉ seen) (hseen' : ∀ f ∈ features, f.id ∉ seen') (r : Run) :
    each Move.act (admissions (settings.omitting []) seen'
        (features.filter fun f => !settings.isDisabled f.id)) (r.recast other) =
      recastOutcome other (each Move.act (admissions settings seen features) r) := by
  induction features generalizing seen seen' r with
  | nil => rfl
  | cons f rest ih =>
    obtain ⟨hf, hids⟩ := List.nodup_cons.mp hids
    obtain ⟨hnew, hseen⟩ := List.forall_mem_cons.mp hseen
    obtain ⟨hnew', hseen'⟩ := List.forall_mem_cons.mp hseen'
    have hnext : ∀ known : List String, (∀ g ∈ rest, g.id ∉ known) →
        ∀ g ∈ rest, g.id ∉ f.id :: known := by
      intro known hknown g hg hin
      rcases List.mem_cons.mp hin with h | h
      · exact hf (List.mem_map.mpr ⟨g, hg, h⟩)
      · exact hknown g hg h
    have hvet : ∀ {known : List String} (s : Run), f.id ∉ known →
        (Move.vet known f).act s = (s, none) := by
      intro known s hknown
      have hcontains : known.contains f.id = false := by simpa using hknown
      rw [Move.act, hcontains, if_neg Bool.false_ne_true]
    have hprovide : Move.provide f ≠ .configure := by
      intro he
      cases he
    rw [admissions, each_cons, hvet r hnew, next_ok]
    by_cases hdisabled : settings.isDisabled f.id = true
    · rw [List.filter_cons_of_neg (by simp [hdisabled]), if_pos hdisabled, List.nil_append]
      exact ih hids (hnext seen hseen) hseen' r
    · rw [List.filter_cons_of_pos (by simp [hdisabled]), admissions, each_cons,
        hvet (r.recast other) hnew', next_ok, if_neg hdisabled,
        if_neg (show ¬ (settings.omitting []).isDisabled f.id = true from Bool.false_ne_true),
        List.singleton_append, List.singleton_append, each_cons, each_cons,
        Move.act_recast hprovide]
      exact next_recast fun s _ => ih hids (hnext seen hseen) (hnext seen' hseen') s

end Moves

/-! ## Runs side by side -/

/-- How a phase ends when its moves have been made. -/
def closePhase (phase : Phase) (o : Outcome) : Outcome :=
  match o.2 with
  | some e => (o.1.broken phase e, some e)
  | none => (o.1.leave phase, none)

theorem runPhase_eq (phase : Phase) (r : Run) : runPhase phase r =
    closePhase phase (each Move.act ((r.enter phase).agenda.moves phase) (r.enter phase)) := by
  obtain ⟨s, e, hmoves, hrun⟩ | ⟨s, hmoves, hrun⟩ := runPhase_cases phase r
  · rw [hrun, hmoves]
    rfl
  · rw [hrun, hmoves]
    rfl

theorem releaseRegistered_recast (other : Inputs) (r : Run) :
    releaseRegistered (r.recast other) = (releaseRegistered r).recast other := by
  have hregistry : (r.recast other).registry = r.registry := rfl
  have hlimit : (r.recast other).settings.disposeLimit = r.settings.disposeLimit := rfl
  unfold releaseRegistered
  rw [hregistry, hlimit]
  generalize r.registry.shutdown r.settings.disposeLimit = released
  obtain ⟨events, outcome, registry⟩ := released
  split
  · rfl
  · cases outcome <;> rfl

theorem leave_recast (other : Inputs) (phase : Phase) (r : Run) :
    (r.recast other).leave phase = (r.leave phase).recast other := by
  have htimed : (r.recast other).timed phase = (r.timed phase).recast other := by
    simp only [Run.timed, Run.recast, Report.retimed, List.map_append, List.map_singleton]
  rw [Run.leave, htimed]
  rfl

theorem closePhase_recast (other : Inputs) (phase : Phase) (o : Outcome) :
    closePhase phase (recastOutcome other o) = recastOutcome other (closePhase phase o) := by
  obtain ⟨s, _ | e⟩ := o
  · exact congrArg (·, none) (leave_recast other phase s)
  · exact congrArg (·, some e)
      (releaseRegistered_recast other (s.note [.alert (.phaseFailed phase.text e.message)]))

/-- Inputs with settings that leave features out, and the same inputs without these features, with
    settings that leave none out. -/
structure Omission (full bare : Inputs) : Prop where
  distinct : (full.features.map (·.id)).Nodup
  loads : Settings.load bare.config = (Settings.load full.config).map (Settings.omitting [])
  features : ∀ s, Settings.load full.config = .ok s →
    bare.features = full.features.filter fun f => !s.isDisabled f.id
  others : bare = { full with
    features := bare.features, config := bare.config, stopwatch := bare.stopwatch }

/-- An application with the readings of another clock in its report, and with settings that leave no
    feature out. -/
def Application.recast (stopwatch : Stopwatch) (app : Application) : Application :=
  { app with settings := app.settings.omitting [], report := app.report.retimed stopwatch }

namespace Omission

variable {full bare : Inputs} {done : List Phase} {phase : Phase} {r : Run}

/-- Reading the settings, side by side. -/
theorem configure_recast (h : Omission full bare) (hr : r.inputs = full) :
    configure (r.recast bare) = recastOutcome bare (configure r) := by
  have hload := h.loads
  rw [← hr] at hload
  dsimp only [configure, Run.recast]
  rw [hload]
  cases Settings.load r.inputs.config <;> rfl

/-- The moves of a phase, side by side. -/
theorem moves_recast (h : Omission full bare) (hs : Stage full done r)
    (hfront : done ++ [phase] <+: Phase.all) :
    each Move.act (((r.recast bare).enter phase).agenda.moves phase) ((r.recast bare).enter phase) =
      recastOutcome bare (each Move.act ((r.enter phase).agenda.moves phase) (r.enter phase)) := by
  change each Move.act (((r.enter phase).recast bare).agenda.moves phase)
    ((r.enter phase).recast bare) = _
  by_cases hconfig : phase = .configuration
  · subst hconfig
    rw [Agenda.moves, Agenda.moves, each_singleton, each_singleton]
    exact h.configure_recast hs.inputs_eq
  by_cases hfeatures : phase = .featureRegistration
  · subst hfeatures
    have hin : .configuration ∈ done := (Phase.mem_front_iff hfront).mpr (by decide)
    have hkept := h.features _ (hs.settings_eq hin).1
    have hinputs := hs.inputs_eq
    change each Move.act (admissions (r.settings.omitting []) [] bare.features) _ =
      recastOutcome bare (each Move.act (admissions r.settings [] r.inputs.features) _)
    rw [hkept, hinputs]
    exact eachAdmission_recast h.distinct (fun _ _ => List.not_mem_nil)
      (fun _ _ => List.not_mem_nil) _
  · have hsame : ((r.enter phase).recast bare).agenda.moves phase =
        (r.enter phase).agenda.moves phase := by
      cases phase with
      | featureRegistration => exact absurd rfl hfeatures
      | _ => rfl
    rw [hsame]
    refine each_recast (fun m hm => Move.act_recast ?_) _
    rintro rfl
    exact hconfig (Agenda.phase_of_mem hm).symm

/-- A phase with its listeners, side by side. -/
theorem runPhase_recast (h : Omission full bare) (hs : Stage full done r)
    (hfront : done ++ [phase] <+: Phase.all) :
    runPhase phase (r.recast bare) = recastOutcome bare (runPhase phase r) := by
  rw [runPhase_eq, runPhase_eq, h.moves_recast hs hfront, closePhase_recast]

/-- The rest of the phases, side by side. -/
theorem runPhases_recast (h : Omission full bare) {todo : List Phase}
    (hall : done ++ todo = Phase.all) (hs : Stage full done r) :
    runPhases todo (r.recast bare) = recastOutcome bare (runPhases todo r) := by
  induction todo generalizing done r with
  | nil => rfl
  | cons phase todo ih =>
    rw [List.append_cons] at hall
    have hfront : done ++ [phase] <+: Phase.all := ⟨todo, hall⟩
    unfold runPhases at ih ⊢
    rw [each_cons, each_cons, h.runPhase_recast hs hfront]
    refine next_recast fun s hphase => ih hall ⟨hfront, ?_⟩
    rw [runPhases, each_append, show each runPhase done (.start full) = (r, none) from hs.comes,
      next_ok, each_singleton, hphase]

/-- Whole runs, side by side. -/
theorem execute_recast (h : Omission full bare) :
    (Executor.ofInputs bare).execute =
      ((Executor.ofInputs full).execute.1,
        (Executor.ofInputs full).execute.2.1.map (Application.recast bare.stopwatch),
        (Executor.ofInputs full).execute.2.2) := by
  have hstart : Run.start bare = (Run.start full).recast bare := by
    rw [h.others]
    rfl
  have hruns := h.runPhases_recast (List.nil_append Phase.all) ⟨List.nil_prefix, rfl⟩
  rw [← hstart] at hruns
  simp only [Executor.execute, Executor.ofInputs, Run.launch, hruns]
  obtain ⟨s, hend⟩ | ⟨s, e, hend⟩ := outcome_cases (runPhases Phase.all (.start full))
  · rw [hend, recastOutcome]
    dsimp only
    have hcoordinator : (s.recast bare).coordinator = s.coordinator := rfl
    rw [hcoordinator]
    cases s.coordinator <;> rfl
  · rw [hend]
    rfl

end Omission

/-! ## Start-ups side by side -/

/-- The trace of a start-up and how it ends: the parts that have been collected are made into an
    executor, and that runs. -/
def Builder.bootstrap (inForce : Bool) (stopwatch : Stopwatch) (b : Builder) :
    List Entry × Except StartupError Application :=
  match b.executor inForce stopwatch with
  | .error e => ([], .error e)
  | .ok x => (x.execute.1, x.execute.2.1)

/-- The same parts without the features that have one of these identifiers. -/
def Builder.without (ids : List String) (b : Builder) : Builder :=
  { b with features := b.features.filter (·.id ∉ ids) }

/-- A start-up ends like another one that runs by another clock: with the same trace, and with the
    same failure or the same application, apart from the times in its report and the features that
    its settings leave out. -/
def EndsLike (stopwatch : Stopwatch) (one other : List Entry × Except StartupError Application) :
    Prop :=
  one.1 = other.1 ∧ one.2 = other.2.map (Application.recast stopwatch)

/-- Whether the log can be put into force, if it was asked for. -/
def Builder.install (inForce : Bool) (b : Builder) : Except StartupError Unit :=
  match b.logging with
  | none => .ok ()
  | some config => config.install inForce

theorem Builder.executor_eq (inForce : Bool) (stopwatch : Stopwatch) (b : Builder) :
    b.executor inForce stopwatch =
      (b.install inForce).map fun _ => .ofInputs (b.inputs stopwatch) := by
  unfold executor install
  cases b.logging with
  | none => rfl
  | some config =>
    dsimp only
    cases config.install inForce <;> rfl

theorem bootstrap_endsLike {b bare : Builder} {inForce : Bool} {watch other : Stopwatch}
    (hlogging : bare.logging = b.logging) (h : Omission (b.inputs watch) (bare.inputs other)) :
    EndsLike other (bare.bootstrap inForce other) (b.bootstrap inForce watch) := by
  have hrun := h.execute_recast
  have hinstall : bare.install inForce = b.install inForce := by
    rw [Builder.install, hlogging, Builder.install]
  unfold Builder.bootstrap
  rw [Builder.executor_eq, Builder.executor_eq, hinstall]
  cases b.install inForce with
  | error e => exact ⟨rfl, rfl⟩
  | ok _ =>
    change EndsLike other (_, (Executor.ofInputs (bare.inputs other)).execute.2.1) _
    rw [hrun]
    exact ⟨rfl, rfl⟩

/-- To leave features out by the settings is to start up without them, if the identifiers of all
    features are distinct: the two start-ups make the same calls and end alike, whether they go well
    or fail. That holds for any sources of settings that say the same apart from the features to
    leave out, and so for those whose last document says which. -/
theorem omitted_is_absent (b : Builder) (hids : (b.features.map (·.id)).Nodup) (inForce : Bool)
    (watch other : Stopwatch) :
    (∀ ids config, (∀ s, Settings.load b.config = .ok s → s.disabled = ids) →
      Settings.load config = (Settings.load b.config).map (Settings.omitting []) →
        EndsLike other (({ b with config }.without ids).bootstrap inForce other)
          (b.bootstrap inForce watch)) ∧
    ∀ ids, EndsLike other (((b.addConfig (.omitting [])).without ids).bootstrap inForce other)
      ((b.addConfig (.omitting ids)).bootstrap inForce watch) := by
  have hfeatures : ∀ {s : Settings} {ids : List String}, s.disabled = ids →
      b.features.filter (·.id ∉ ids) = b.features.filter fun f => !s.isDisabled f.id := by
    rintro s ids rfl
    refine List.filter_congr fun f _ => ?_
    simp [Settings.isDisabled]
  refine ⟨fun ids config hdisabled hload => bootstrap_endsLike rfl ⟨hids, hload, ?_, rfl⟩,
    fun ids => bootstrap_endsLike rfl ⟨hids, load_omitting b.config [] ids, ?_, rfl⟩⟩
  · exact fun s hs => hfeatures (hdisabled s hs)
  · exact fun s hs => hfeatures (disabled_of_load hs)

/-- A shop with a page, which one feature adds, and with a feature that keeps an eye on it. -/
def watchedShop : Builder :=
  { Builder.empty with
    features := [
      { Feature.bare "web" with
        provides := [⟨.httpHandler, "shop::List", none, [],
          some (Recipe.factory ⟨[], "List", none⟩)⟩] },
      .bare "audit"]
    source := some (.pool (.ofSize "db" 1)) }

theorem omitted_is_absent_watchedShop :
    (watchedShop.features.map (·.id)).Nodup ∧
      EndsLike .still
        (((watchedShop.addConfig (.omitting [])).without ["audit"]).bootstrap false .still)
        ((watchedShop.addConfig (.omitting ["audit"])).bootstrap false .still) ∧
      callsOf ((watchedShop.addConfig (.omitting ["audit"])).bootstrap false .still).1 =
        [.provide "web", .resolve, .create ⟨.httpHandler, "List"⟩, .ready "web"] := by
  have hids : (watchedShop.features.map (·.id)).Nodup := by decide
  exact ⟨hids, (omitted_is_absent watchedShop hids false .still .still).2 ["audit"],
    by decide +kernel⟩

end Startup

end BootEngine
