import BootEngine.Proofs.Registry.Disposal
import BootEngine.Proofs.Registry.Lookup
import BootEngine.Proofs.Startup.Moves

/-!
# Phases as moves

Which moves a phase makes depends on the state in which it begins and on nothing that happens in it:
what features and scanners add can be told in advance, and so can the order of it all. Each phase
writes fields of its own and leaves the others as they were.

Contents:
* `Agenda.moves`, `Phase.body_eq`: a phase is the list of its moves.
* `Steady`, `Frame`, `Move.frame_act`: what a phase leaves as it was.
* `Tidy`, `Move.tidy_act`: what always holds of the registry and the report.
* `Run.trace_broken`, `runPhase_cases`: how a phase with its listeners ends.
-/

namespace BootEngine.Startup

open Component (Key Instance)
open Run (next each)

/-! ## The moves of a phase -/

/-- The moves that look at features, and ask those that are not left out. -/
def admissions (settings : Settings) : List String → List Feature → List Move
  | _, [] => []
  | seen, f :: rest =>
    .vet seen f ::
      ((if settings.isDisabled f.id then [] else [.provide f]) ++
        admissions settings (f.id :: seen) rest)

/-- What the items of a list give, one after another, or the failure of the first that fails. -/
def allOf {α β ε : Type} (give : α → Except ε (List β)) : List α → Except ε (List β)
  | [] => .ok []
  | a :: rest =>
    match give a with
    | .error e => .error e
    | .ok first => (allOf give rest).map (first ++ ·)

theorem allOf_cons {α β ε : Type} {give : α → Except ε (List β)} {a : α} {rest : List α}
    {first others : List β} (hfirst : give a = .ok first) (hothers : allOf give rest = .ok others) :
    allOf give (a :: rest) = .ok (first ++ others) := by
  rw [allOf, hfirst, hothers]
  rfl

/-- What scanners find below roots, or the failure of the first that fails. -/
def foundBy (scanners : List Scanner) (roots : List String) :
    Except DiscoveryError (List Registration) :=
  allOf (fun s : Scanner => (s.scan roots).2) scanners

/-- What has been collected and what the scanners add, in the order of the resolver. If there is no
    such order, nothing is built. -/
def Run.ordered (r : Run) : List Registration :=
  match foundBy r.inputs.scanners r.roots with
  | .error _ => []
  | .ok found => (r.inputs.resolver.arrange? (r.pending ++ found)).getD []

/-- The move for a component whose turn it is outside the web layer. -/
def placing (registration : Registration) : Move :=
  if registration.descriptor.kind.isWeb then .setAside registration else .create false registration

/-- The moves for a component of the web layer. -/
def mounting (binder : Option Binder) (registration : Registration) : List Move :=
  .create true registration :: binder.toList.map fun b => .bind b registration.descriptor.key

/-- What the phases go by: `ordered` is to be built, `web` is built in the web layer, and `active`
    hear of the end. -/
structure Agenda where
  settings : Settings
  features : List Feature
  scanners : List Scanner
  ordered : List Registration
  web : List Registration
  binder : Option Binder
  active : List Feature

/-- The moves of a phase. -/
def Agenda.moves (a : Agenda) : Phase → List Move
  | .configuration => [.configure]
  | .coreInfrastructure => [.registerCore]
  | .featureRegistration => admissions a.settings [] a.features
  | .componentRegistration => a.scanners.map .scan ++ .order :: a.ordered.map placing
  | .routeRegistration => .takeUp :: a.web.flatMap (mounting a.binder)
  | .featureReady => a.active.map .ready
  | .validation => [.check]

/-- What a phase that begins in some state goes by. -/
def Run.agenda (r : Run) : Agenda :=
  ⟨r.settings, r.inputs.features, r.inputs.scanners, r.ordered, r.web, r.inputs.binder, r.active⟩

/-! ## What moves leave as it was -/

/-- What a phase with its listeners leaves as it was. -/
structure Steady (phase : Phase) (r s : Run) : Prop where
  inputs : s.inputs = r.inputs
  closed : s.registry.closed = r.registry.closed
  settings : phase ≠ .configuration → s.settings = r.settings ∧ s.roots = r.roots
  core : phase ≠ .coreInfrastructure → s.coordinator = r.coordinator ∧
    s.registry.coordinator = r.registry.coordinator ∧
      s.registry.dataSource = r.registry.dataSource
  active : phase ≠ .featureRegistration → s.active = r.active
  pending : phase ≠ .featureRegistration → phase ≠ .componentRegistration → s.pending = r.pending
  web : phase ≠ .componentRegistration → phase ≠ .routeRegistration → s.web = r.web
  built : phase ≠ .componentRegistration → phase ≠ .routeRegistration →
    s.registry.entries = r.registry.entries ∧ s.report.components = r.report.components
  told : phase ≠ .featureReady → s.report.featuresReady = r.report.featuresReady

/-- What the moves of a phase leave as it was: they do not take the time either. -/
structure Frame (phase : Phase) (r s : Run) : Prop extends Steady phase r s where
  timings : s.report.phases = r.report.phases

theorem Steady.trans {phase : Phase} {r s t : Run} (h : Steady phase r s) (g : Steady phase s t) :
    Steady phase r t where
  inputs := g.inputs.trans h.inputs
  closed := g.closed.trans h.closed
  settings hp :=
    ⟨(g.settings hp).1.trans (h.settings hp).1, (g.settings hp).2.trans (h.settings hp).2⟩
  core hp :=
    ⟨(g.core hp).1.trans (h.core hp).1, (g.core hp).2.1.trans (h.core hp).2.1,
      (g.core hp).2.2.trans (h.core hp).2.2⟩
  active hp := (g.active hp).trans (h.active hp)
  pending hp hq := (g.pending hp hq).trans (h.pending hp hq)
  web hp hq := (g.web hp hq).trans (h.web hp hq)
  built hp hq :=
    ⟨(g.built hp hq).1.trans (h.built hp hq).1, (g.built hp hq).2.trans (h.built hp hq).2⟩
  told hp := (g.told hp).trans (h.told hp)

namespace Frame

variable {phase : Phase} {r s t : Run}

theorem refl (phase : Phase) (r : Run) : Frame phase r r :=
  ⟨⟨rfl, rfl, fun _ => ⟨rfl, rfl⟩, fun _ => ⟨rfl, rfl, rfl⟩, fun _ => rfl, fun _ _ => rfl,
    fun _ _ => rfl, fun _ _ => ⟨rfl, rfl⟩, fun _ => rfl⟩, rfl⟩

theorem trans (h : Frame phase r s) (g : Frame phase s t) : Frame phase r t :=
  ⟨h.toSteady.trans g.toSteady, g.timings.trans h.timings⟩

/-- Adding to the trace leaves everything else as it was. -/
theorem note (phase : Phase) (r : Run) (entries : List Entry) : Frame phase r (r.note entries) :=
  { refl phase r with }

end Frame

theorem Phase.ofLayer_mem (web : Bool) :
    Phase.ofLayer web = .componentRegistration ∨ Phase.ofLayer web = .routeRegistration := by
  cases web
  · exact .inl rfl
  · exact .inr rfl

/-- A move changes only what belongs to its phase. -/
theorem Move.frame_act (m : Move) (r : Run) : Frame m.phase r (m.act r).1 := by
  cases m with
  | configure =>
    obtain ⟨e, -, h⟩ | ⟨settings, -, h⟩ := configure_cases r <;> rw [act, h]
    · exact .refl _ r
    · exact { Frame.refl .configuration r with settings := fun h => absurd rfl h }
  | registerCore =>
    obtain ⟨e, -, h⟩ | ⟨source, -, h⟩ := registerCore_cases r <;> rw [act, h]
    · exact .refl _ r
    · exact { Frame.refl .coreInfrastructure r with core := fun h => absurd rfl h }
  | vet seen f => exact .refl _ r
  | provide f =>
    obtain ⟨part, e, -, h⟩ | ⟨registrations, -, h⟩ := askFeature_cases r f <;> rw [act, h]
    all_goals
      exact { Frame.note .featureRegistration r [.provide f.id f.quiet] with
        active := fun h => absurd rfl h, pending := fun h => absurd rfl h }
  | scan s =>
    obtain ⟨e, -, h⟩ | ⟨found, -, h⟩ := scanWith_cases r s <;> rw [act, h]
    · exact .note _ r _
    · exact { Frame.note .componentRegistration r (s.entries r.roots) with
        pending := fun _ h => absurd rfl h }
  | order =>
    obtain ⟨pending, e, -, h⟩ | ⟨ordered, -, h⟩ := orderCollected_cases r <;> rw [act, h]
    all_goals
      exact { Frame.note .componentRegistration r r.resolveEntries with
        pending := fun _ h => absurd rfl h }
  | setAside registration =>
    exact { Frame.refl .componentRegistration r with web := fun h => absurd rfl h }
  | create web registration =>
    obtain ⟨e, -, h⟩ | ⟨item, e, -, -, h⟩ | ⟨item, -, -, h⟩ :=
      instantiate_cases r (.ofLayer web) registration <;> rw [act, h]
    · exact .note _ r _
    · exact .trans (.note _ r _) (.note _ _ _)
    · exact { Frame.refl (.ofLayer web) r with
        built := fun hp hq => absurd (Phase.ofLayer_mem web) (not_or.mpr ⟨hp, hq⟩) }
  | takeUp => exact { Frame.refl .routeRegistration r with web := fun _ h => absurd rfl h }
  | bind binder key =>
    obtain ⟨e, -, h⟩ | ⟨item, -, ⟨e, h⟩ | ⟨-, h⟩⟩ := bindRoute_cases r binder key <;> rw [act, h]
    · exact .refl _ r
    · exact .note _ r _
    · exact .note _ r _
  | ready f =>
    obtain ⟨e, -, h⟩ | ⟨-, h⟩ := notify_cases r f <;> rw [act, h]
    · exact .note _ r _
    · exact { Frame.note .featureReady r (r.readyEntries f) with told := fun h => absurd rfl h }
  | check =>
    obtain ⟨alerts, o, h⟩ := checkRegistered_cases r
    rw [act, h]
    exact .note _ r _

/-- A move leaves the entries of the registry as they were, or has built a component and adds what
    its factory has given back. -/
theorem Move.entries_act (m : Move) (r : Run) :
    (m.act r).1.registry.entries = r.registry.entries ∨
      ∃ web c item, m = .create web c ∧ (c.factory (r.view c)).2 = .ok item ∧
        (m.act r).1.registry.entries = r.registry.entries ++ [(c.descriptor.key, item)] := by
  cases m with
  | create web c =>
    obtain ⟨e, -, h⟩ | ⟨item, e, -, -, h⟩ | ⟨item, hmade, -, h⟩ :=
      instantiate_cases r (.ofLayer web) c <;> rw [act, h]
    · exact .inl rfl
    · exact .inl rfl
    · exact .inr ⟨web, c, item, rfl, hmade, rfl⟩
  | scan s =>
    obtain ⟨e, -, h⟩ | ⟨found, -, h⟩ := scanWith_cases r s <;> rw [act, h] <;> exact .inl rfl
  | order =>
    obtain ⟨pending, e, -, h⟩ | ⟨ordered, -, h⟩ := orderCollected_cases r <;> rw [act, h] <;>
      exact .inl rfl
  | setAside c => exact .inl rfl
  | takeUp => exact .inl rfl
  | bind binder key =>
    obtain ⟨e, -, h⟩ | ⟨item, -, ⟨e, h⟩ | ⟨-, h⟩⟩ := bindRoute_cases r binder key <;>
      rw [act, h] <;> exact .inl rfl
  | _ => exact .inl ((frame_act _ r).built (by simp [phase]) (by simp [phase])).1

/-! ## Phases are their moves -/

theorem registerFrom_eq (features : List Feature) (seen : List String) (r : Run) :
    registerFrom seen features r = each Move.act (admissions r.settings seen features) r := by
  induction features generalizing seen r with
  | nil => rfl
  | cons f rest ih =>
    rw [registerFrom, admissions, each_cons, Move.act]
    split
    · rfl
    · rw [next_ok, registerFeature]
      split
      · rw [next_ok, ih, List.nil_append]
      · rw [each_append, each_singleton, Move.act]
        change next (askFeature f r) _ = _
        -- asking a feature leaves the settings as they are, which the moves behind it go by
        obtain ⟨part, e, -, h⟩ | ⟨registrations, -, h⟩ := askFeature_cases r f
        · rw [h, next_failed, next_failed]
        · rw [h, next_ok, next_ok, ih]
          rfl

/-- All scanners find something below the roots, or one of them fails. -/
theorem eachScan_cases (scanners : List Scanner) (r : Run) :
    (∃ s e, foundBy scanners r.roots = .error e ∧
        each scanWith scanners r = (s, some (.discovery e))) ∨
      ∃ found, foundBy scanners r.roots = .ok found ∧
        each scanWith scanners r =
          ({ r.note (scanners.flatMap fun s => s.entries r.roots) with
              pending := r.pending ++ found }, none) := by
  induction scanners generalizing r with
  | nil =>
    refine .inr ⟨[], rfl, ?_⟩
    rw [each_nil, List.append_nil, List.flatMap_nil, Run.note, List.append_nil]
  | cons s scanners ih =>
    rw [each_cons]
    obtain ⟨e, hscan, h⟩ | ⟨first, hscan, h⟩ := scanWith_cases r s
    · rw [foundBy, allOf, hscan, h]
      exact .inl ⟨_, e, rfl, rfl⟩
    · rw [h, next_ok]
      have hrest := ih { r.note (s.entries r.roots) with pending := r.pending ++ first }
      obtain ⟨t, e, hnone, heq⟩ | ⟨found, hfound, heq⟩ := hrest
      · refine .inl ⟨t, e, ?_, heq⟩
        rw [foundBy, allOf, hscan]
        exact congrArg (Except.map (first ++ ·)) hnone
      · refine .inr ⟨first ++ found, allOf_cons hscan hfound, ?_⟩
        rw [heq]
        dsimp only [Run.note]
        rw [List.flatMap_cons, List.append_assoc, List.append_assoc]

theorem buildOrSetAside_eq (registration : Registration) (r : Run) :
    buildOrSetAside registration r = (placing registration).act r := by
  unfold buildOrSetAside placing
  split <;> rfl

theorem buildAll_eq (r : Run) :
    buildAll r =
      next (orderCollected r)
        (each Move.act (((r.inputs.resolver.arrange? r.pending).getD []).map placing)) := by
  have hplaced : ∀ ordered : List Registration,
      each Move.act (ordered.map placing) = each buildOrSetAside ordered := by
    intro ordered
    funext s
    rw [each_map]
    have hact : buildOrSetAside = fun registration => (placing registration).act :=
      funext fun registration => funext (buildOrSetAside_eq registration)
    rw [hact]
  rw [hplaced]
  unfold buildAll orderCollected Resolver.arrange?
  dsimp only [Run.note]
  cases r.inputs.resolver.resolve (r.pending.map (·.descriptor)) with
  | error e => rfl
  | ok plan =>
    dsimp only [Except.toOption, Option.bind_some]
    cases plan.arrange? r.pending with
    | none => rfl
    | some ordered => rfl

theorem registerRoute_eq (registration : Registration) (r : Run) :
    registerRoute registration r = each Move.act (mounting r.inputs.binder registration) r := by
  rw [registerRoute, mounting, each_cons, Move.act]
  obtain ⟨e, -, h⟩ | ⟨item, e, -, -, h⟩ | ⟨item, -, -, h⟩ :=
    instantiate_cases r .routeRegistration registration
  · rw [h, Phase.ofLayer, if_pos rfl, h, next_failed, next_failed]
  · rw [h, Phase.ofLayer, if_pos rfl, h, next_failed, next_failed]
  · have hkeep : (r.published .routeRegistration registration item).inputs = r.inputs := rfl
    rw [h, Phase.ofLayer, if_pos rfl, h, next_ok, next_ok, hkeep]
    cases r.inputs.binder with
    | none => rfl
    | some binder => exact (next_return (bindRoute binder _ _)).symm

/-- A phase does what its moves do, one after another. -/
theorem Phase.body_eq (phase : Phase) (r : Run) :
    phase.body r = each Move.act (r.agenda.moves phase) r := by
  cases phase with
  | configuration => exact (@each_singleton Move Move.act .configure r).symm
  | coreInfrastructure => exact (@each_singleton Move Move.act .registerCore r).symm
  | featureRegistration => exact registerFrom_eq r.inputs.features [] r
  | componentRegistration =>
    rw [body, Agenda.moves, each_append, each_map]
    change next (each scanWith r.inputs.scanners r) buildAll =
      next (each scanWith r.inputs.scanners r)
        (each Move.act (.order :: r.ordered.map placing))
    obtain ⟨s, e, -, h⟩ | ⟨found, hfound, h⟩ := eachScan_cases r.inputs.scanners r
    · rw [h, next_failed, next_failed]
    · rw [h, next_ok, next_ok, buildAll_eq, Run.ordered, hfound]
      rfl
  | routeRegistration =>
    change each registerRoute r.web { r with web := [] } =
      each Move.act (r.web.flatMap (mounting r.inputs.binder)) { r with web := [] }
    rw [each_flatMap]
    -- the binder that the moves are made for is still there at each of them
    have hroutes : ∀ (l : List Registration) (s : Run), s.inputs = r.inputs →
        each registerRoute l s = each (fun a => each Move.act (mounting r.inputs.binder a)) l s := by
      intro l
      induction l with
      | nil => exact fun _ _ => rfl
      | cons a l ih =>
        intro s hs
        have ha := registerRoute_eq a s
        rw [hs] at ha
        have hkeep : (registerRoute a s).1.inputs = r.inputs := by
          rw [ha]
          refine each_keeps (P := fun s => s.inputs = r.inputs) (fun m _ t ht => ?_) hs
          exact (m.frame_act t).inputs.trans ht
        rw [each_cons, each_cons, ← ha]
        obtain ⟨t, h⟩ | ⟨t, e, h⟩ := outcome_cases (registerRoute a s)
        · rw [h] at hkeep ⊢
          exact ih t hkeep
        · rw [h, next_failed, next_failed]
    exact hroutes r.web _ rfl
  | featureReady => exact (@each_map Move Feature Move.act .ready r.active r).symm
  | validation => exact (@each_singleton Move Move.act .check r).symm

theorem phase_of_mem_admissions {settings : Settings} {seen : List String}
    {features : List Feature} {m : Move} (h : m ∈ admissions settings seen features) :
    m.phase = .featureRegistration := by
  induction features generalizing seen with
  | nil => cases h
  | cons f rest ih =>
    rw [admissions, List.mem_cons, List.mem_append] at h
    rcases h with rfl | h | h
    · rfl
    · split at h
      · cases h
      · rw [List.mem_singleton.mp h]
        rfl
    · exact ih h

theorem Agenda.phase_of_mem {a : Agenda} {phase : Phase} {m : Move} (h : m ∈ a.moves phase) :
    m.phase = phase := by
  cases phase with
  | configuration => rw [List.mem_singleton.mp h]; rfl
  | coreInfrastructure => rw [List.mem_singleton.mp h]; rfl
  | featureRegistration => exact phase_of_mem_admissions h
  | componentRegistration =>
    rw [moves, List.mem_append, List.mem_cons, List.mem_map, List.mem_map] at h
    rcases h with ⟨s, -, rfl⟩ | rfl | ⟨registration, -, rfl⟩
    · rfl
    · rfl
    · unfold placing
      split <;> rfl
  | routeRegistration =>
    rw [moves, List.mem_cons, List.mem_flatMap] at h
    rcases h with rfl | ⟨registration, -, h⟩
    · rfl
    · rw [mounting, List.mem_cons, List.mem_map] at h
      rcases h with rfl | ⟨binder, -, rfl⟩ <;> rfl
  | featureReady =>
    obtain ⟨f, -, rfl⟩ := List.mem_map.mp h
    rfl
  | validation => rw [List.mem_singleton.mp h]; rfl

theorem Agenda.phase_of_next {a : Agenda} {phase : Phase} {made : List Move} {m : Move}
    (h : made ++ [m] <+: a.moves phase) : m.phase = phase :=
  phase_of_mem (h.subset (List.mem_append_right _ (List.mem_singleton_self _)))

/-- Moves of one phase change only what belongs to it. -/
theorem frame_each {phase : Phase} (moves : List Move) (h : ∀ m ∈ moves, m.phase = phase)
    (r : Run) : Frame phase r (each Move.act moves r).1 :=
  each_keeps (P := Frame phase r) (fun m hm s hs => hs.trans (h m hm ▸ m.frame_act s)) (.refl _ r)

/-! ## The registry and the report -/

/-- An entry of a release. -/
def Entry.isRelease : Entry → Bool
  | .release _ => true
  | _ => false

/-- What always holds until something is released: the registry is open, no key is in it twice, and
    the report lists what is in it. -/
structure Tidy (r : Run) : Prop where
  isOpen : r.registry.closed = false
  distinct : (r.registry.entries.map Prod.fst).Nodup
  reported : r.report.components.map (·.key) = r.registry.entries.map Prod.fst
  unreleased : ∀ e ∈ r.trace, e.isRelease = false

theorem Tidy.note {r : Run} (h : Tidy r) (entries : List Entry)
    (hentries : ∀ e ∈ entries, e.isRelease = false) : Tidy (r.note entries) :=
  { h with
    unreleased := fun e he => (List.mem_append.mp he).elim (h.unreleased e) (hentries e) }

theorem Tidy.start (inputs : Inputs) : Tidy (.start inputs) :=
  ⟨rfl, List.nodup_nil, rfl, fun _ he => nomatch he⟩

theorem isRelease_cons_map {α : Type} {first : Entry} {f : α → Entry} {l : List α}
    (hfirst : first.isRelease = false) (h : ∀ a, (f a).isRelease = false) :
    ∀ e ∈ first :: l.map f, e.isRelease = false := by
  intro e he
  rcases List.mem_cons.mp he with rfl | he
  · exact hfirst
  · obtain ⟨a, -, rfl⟩ := List.mem_map.mp he
    exact h a

/-- Every move keeps the registry and the report in order, whether it goes well or not. -/
theorem Move.tidy_act {m : Move} {r : Run} (h : Tidy r) : Tidy (m.act r).1 := by
  cases m with
  | configure =>
    obtain ⟨e, -, hm⟩ | ⟨settings, -, hm⟩ := configure_cases r <;> rw [act, hm] <;> exact { h with }
  | registerCore =>
    obtain ⟨e, -, hm⟩ | ⟨source, -, hm⟩ := registerCore_cases r <;> rw [act, hm] <;>
      exact { h with }
  | vet seen f => exact h
  | provide f =>
    have hnote := h.note [.provide f.id f.quiet] (by simp [Entry.isRelease])
    obtain ⟨part, e, -, hm⟩ | ⟨registrations, -, hm⟩ := askFeature_cases r f <;> rw [act, hm] <;>
      exact { hnote with }
  | scan s =>
    have hnote := h.note (s.entries r.roots) (isRelease_cons_map rfl fun _ => rfl)
    obtain ⟨e, -, hm⟩ | ⟨found, -, hm⟩ := scanWith_cases r s <;> rw [act, hm] <;>
      exact { hnote with }
  | order =>
    have hnote := h.note r.resolveEntries (by simp [Run.resolveEntries, Entry.isRelease])
    obtain ⟨pending, e, -, hm⟩ | ⟨ordered, -, hm⟩ := orderCollected_cases r <;> rw [act, hm] <;>
      exact { hnote with }
  | setAside registration => exact { h with }
  | create web registration =>
    have hnote := h.note (r.createEntries registration)
      (isRelease_cons_map rfl fun _ => rfl)
    have hbuilt : ∀ item : Instance,
        ∀ e ∈ [Entry.built registration.descriptor.key item], e.isRelease = false := by
      simp [Entry.isRelease]
    obtain ⟨e, -, hm⟩ | ⟨item, e, -, -, hm⟩ | ⟨item, -, hnew, hm⟩ :=
      instantiate_cases r (.ofLayer web) registration <;> rw [act, hm]
    · exact hnote
    · exact hnote.note _ (hbuilt item)
    · refine ⟨h.isOpen, ?_, ?_, (hnote.note _ (hbuilt item)).unreleased⟩
      · rw [Run.published, List.map_append, List.map_singleton]
        refine h.distinct.append (List.nodup_singleton _) fun key hkey hin => ?_
        obtain rfl := List.mem_singleton.mp hin
        exact Registry.find?_eq_none_iff.mp hnew hkey
      · rw [Run.published, List.map_append, List.map_append, h.reported]
        rfl
  | takeUp => exact { h with }
  | bind binder key =>
    have hbind : ∀ item : Instance, ∀ e ∈ [Entry.bind key item], e.isRelease = false := by
      simp [Entry.isRelease]
    obtain ⟨e, -, hm⟩ | ⟨item, -, ⟨e, hm⟩ | ⟨-, hm⟩⟩ := bindRoute_cases r binder key <;>
      rw [act, hm]
    · exact h
    · exact h.note _ (hbind item)
    · exact h.note _ (hbind item)
  | ready f =>
    have hnote := h.note (r.readyEntries f) (isRelease_cons_map rfl fun _ => rfl)
    obtain ⟨e, -, hm⟩ | ⟨-, hm⟩ := notify_cases r f <;> rw [act, hm] <;> exact { hnote with }
  | check =>
    obtain ⟨alerts, o, hm⟩ := checkRegistered_cases r
    rw [act, hm]
    refine h.note _ fun e he => ?_
    obtain ⟨a, -, rfl⟩ := List.mem_map.mp he
    rfl

/-! ## Phases with their listeners -/

/-- The state in which the moves of a phase begin: the listeners have been told. -/
def Run.enter (phase : Phase) (r : Run) : Run :=
  r.note (r.inputs.listeners.map fun listener => .phaseStarted listener phase)

/-- The state after the time of a phase has been taken. -/
def Run.timed (phase : Phase) (r : Run) : Run :=
  { r with report := { r.report with
      phases := r.report.phases ++ [⟨phase, r.inputs.stopwatch.phaseTime phase⟩] } }

/-- The state after a phase that has gone well. -/
def Run.leave (phase : Phase) (r : Run) : Run :=
  (r.timed phase).note (r.inputs.listeners.map fun listener => .phaseCompleted listener phase)

/-- The state after a phase has failed, when what was registered has been released. -/
def Run.broken (phase : Phase) (e : StartupError) (r : Run) : Run :=
  releaseRegistered (r.note [.alert (.phaseFailed phase.text e.message)])

/-- What a run has said about its release in the end: nothing if everything has been given back. -/
def Run.releaseAlerts (r : Run) : List Entry :=
  let faults := (disposeAll r.settings.disposeLimit r.registry.entries.reverse).2.filterMap id
  if faults.isEmpty then []
  else [.alert (.releaseFailed (StartupError.shutdownFailed ("; ".intercalate faults)).message)]

/-- The trace after a phase has failed: the failure is reported, and then everything that has been
    registered is released. -/
theorem Run.trace_broken {r : Run} (hopen : r.registry.closed = false) (phase : Phase)
    (e : StartupError) :
    (r.broken phase e).trace = r.trace ++ .alert (.phaseFailed phase.text e.message) ::
      ((disposeAll r.settings.disposeLimit r.registry.entries.reverse).1.map .release ++
        r.releaseAlerts) := by
  unfold broken releaseRegistered releaseAlerts
  cases hentries : r.registry.entries with
  | nil =>
    simp only [note, Registry.isEmpty, hentries, List.isEmpty_nil, if_true]
    rfl
  | cons entry rest =>
    simp only [note, Registry.isEmpty, hentries, List.isEmpty_cons, Bool.false_eq_true, if_false,
      Registry.shutdown_eq hopen]
    generalize disposeAll r.settings.disposeLimit (entry :: rest).reverse = released
    cases (released.2.filterMap id).isEmpty with
    | true => simp only [if_true, List.append_assoc, List.append_nil, List.singleton_append]
    | false =>
      simp only [Bool.false_eq_true, if_false, List.append_assoc, List.cons_append,
        List.nil_append]

theorem runPhase_cases (phase : Phase) (r : Run) :
    (∃ s e, each Move.act ((r.enter phase).agenda.moves phase) (r.enter phase) = (s, some e) ∧
        runPhase phase r = (s.broken phase e, some e)) ∨
      ∃ s, each Move.act ((r.enter phase).agenda.moves phase) (r.enter phase) = (s, none) ∧
        runPhase phase r = (s.leave phase, none) := by
  rw [← Phase.body_eq]
  obtain ⟨s, h⟩ | ⟨s, e, h⟩ := outcome_cases (phase.body (r.enter phase))
  · refine .inr ⟨s, h, ?_⟩
    unfold Run.enter at h
    simp only [runPhase, h]
    rfl
  · refine .inl ⟨s, e, h, ?_⟩
    unfold Run.enter at h
    simp only [runPhase, h]
    rfl

/-- A phase that has gone well has changed only what belongs to it, apart from its own time. -/
theorem steady_of_ok {phase : Phase} {r s : Run}
    (h : each Move.act ((r.enter phase).agenda.moves phase) (r.enter phase) = (s, none)) :
    Steady phase r (s.leave phase) := by
  have hframe : Frame phase (r.enter phase) s := by
    have hmoves := frame_each ((r.enter phase).agenda.moves phase)
      (fun _ hm => Agenda.phase_of_mem hm) (r.enter phase)
    rwa [h] at hmoves
  exact { ((Frame.note phase r _).trans hframe).toSteady with }

theorem Tidy.enter {r : Run} (h : Tidy r) (phase : Phase) : Tidy (r.enter phase) := by
  refine h.note _ fun e he => ?_
  obtain ⟨listener, -, rfl⟩ := List.mem_map.mp he
  rfl

theorem Tidy.leave {r : Run} (h : Tidy r) (phase : Phase) : Tidy (r.leave phase) := by
  have htimed : Tidy (r.timed phase) := { h with }
  refine htimed.note _ fun e he => ?_
  obtain ⟨listener, -, rfl⟩ := List.mem_map.mp he
  rfl

end BootEngine.Startup
