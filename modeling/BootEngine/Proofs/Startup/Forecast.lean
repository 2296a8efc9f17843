import BootEngine.Proofs.Startup.Phases

/-!
# What the inputs settle

Everything that a run goes by can be told from its inputs before it starts: its settings, the roots
to scan below, what features and scanners add to what is built, and the order of it. So can the
moves of each of its phases, as far as they are made.

Contents:
* `Inputs.collected`, `Inputs.ordered`: what there is to build, and in which order.
* `Inputs.agenda`: what the phases of a run go by.
* `Agenda.calls`, `Agenda.created`: the calls of a phase, and the components that it builds.
* `eachAdmission_eq_ok`, `eachPlacing_eq_ok`: what the loops have done when they come to their end.
-/

namespace BootEngine.Startup

open Component (Key Instance)
open Run (each)

/-- A registration for the web layer. -/
def isWeb (registration : Registration) : Bool := registration.descriptor.kind.isWeb

/-- What features provide, or the failure of the first that fails. -/
def providedBy (features : List Feature) : Except DiscoveryError (List Registration) :=
  allOf Feature.registrations features

namespace Inputs

variable (inputs : Inputs)

/-- The settings that a run works with, if it gets any. -/
def settings : Settings := (Settings.load inputs.config).toOption.getD .standard

/-- The roots to scan below: those that were given, then those of the settings. -/
def allRoots : List String := inputs.settings.roots.foldl addRoot inputs.roots

/-- The features that the settings do not leave out. -/
def enabled : List Feature := inputs.features.filter fun f => !inputs.settings.isDisabled f.id

/-- What there is to build: what the features provide, then what the scanners find. -/
def collected : Except DiscoveryError (List Registration) :=
  match providedBy inputs.enabled with
  | .error e => .error e
  | .ok provided => (foundBy inputs.scanners inputs.allRoots).map (provided ++ ·)

/-- What there is to build, in the order of the resolver. If there is no such order, nothing is. -/
def ordered : List Registration :=
  (inputs.collected.toOption.bind inputs.resolver.arrange?).getD []

/-- What the phases of a run go by. -/
def agenda : Agenda where
  settings := inputs.settings
  features := inputs.features
  scanners := inputs.scanners
  ordered := inputs.ordered
  web := inputs.ordered.filter isWeb
  binder := inputs.binder
  active := inputs.enabled

end Inputs

theorem Inputs.collected_eq_ok {inputs : Inputs} {collected : List Registration} :
    inputs.collected = .ok collected ↔ ∃ provided found,
      providedBy inputs.enabled = .ok provided ∧
        foundBy inputs.scanners inputs.allRoots = .ok found ∧ collected = provided ++ found := by
  unfold Inputs.collected
  cases providedBy inputs.enabled with
  | error e => simp
  | ok provided =>
    cases foundBy inputs.scanners inputs.allRoots with
    | error e => simp [Except.map]
    | ok found => simp [Except.map, eq_comm]

/-- Roots that are added come behind those that are there already, in their order; one that is
    listed already is passed over. -/
theorem foldl_addRoot (added roots : List String) :
    added.foldl addRoot roots = roots ++ (added.filter (· ∉ roots)).eraseDups := by
  induction added generalizing roots with
  | nil => exact (List.append_nil _).symm
  | cons root added ih =>
    rw [List.foldl_cons, ih, addRoot]
    split
    · next hin =>
      rw [List.contains_iff_mem] at hin
      rw [List.filter_cons_of_neg (by simpa using hin)]
    · next hnew =>
      rw [List.contains_iff_mem] at hnew
      rw [List.filter_cons_of_pos (by simpa using hnew), List.eraseDups_cons, List.filter_filter,
        List.append_assoc, List.singleton_append]
      -- a later root is new if it is neither listed nor this one
      congr 3
      apply List.filter_congr
      intro other _
      by_cases hsame : other = root <;> simp [hsame]

theorem mem_foldl_addRoot {added roots : List String} {root : String} :
    root ∈ added.foldl addRoot roots ↔ root ∈ roots ∨ root ∈ added := by
  rw [foldl_addRoot, List.mem_append, List.mem_eraseDups, List.mem_filter]
  by_cases hin : root ∈ roots <;> simp [hin]

/-! ## Calls and components of a phase -/

namespace Agenda

variable (a : Agenda)

/-- The features that are asked for their components. -/
def asked : List Feature := a.features.filter fun f => !a.settings.isDisabled f.id

/-- The calls of a phase between those to the listeners. -/
def calls : Phase → List Call
  | .featureRegistration => a.asked.map fun f => .provide f.id
  | .componentRegistration =>
    a.scanners.map (fun s => .scan s.name) ++
      .resolve :: (a.ordered.filter (!isWeb ·)).map fun c => .create c.descriptor.key
  | .routeRegistration =>
    a.web.flatMap fun c =>
      .create c.descriptor.key :: a.binder.toList.map fun _ => .bind c.descriptor.key
  | .featureReady => a.active.map fun f => .ready f.id
  | _ => []

/-- The components that a phase builds. -/
def created : Phase → List Registration
  | .componentRegistration => a.ordered.filter (!isWeb ·)
  | .routeRegistration => a.web
  | _ => []

theorem calls_admissions (settings : Settings) (features : List Feature) (seen : List String) :
    (admissions settings seen features).flatMap Move.calls =
      (features.filter fun f => !settings.isDisabled f.id).map fun f => .provide f.id := by
  induction features generalizing seen with
  | nil => rfl
  | cons f rest ih =>
    rw [admissions, List.flatMap_cons, List.flatMap_append, ih, List.filter_cons]
    cases settings.isDisabled f.id <;> rfl

theorem calls_placing (ordered : List Registration) :
    (ordered.map placing).flatMap Move.calls =
      (ordered.filter (!isWeb ·)).map fun c => .create c.descriptor.key := by
  induction ordered with
  | nil => rfl
  | cons c rest ih =>
    rw [List.map_cons, List.flatMap_cons, ih, List.filter_cons, placing, isWeb]
    cases c.descriptor.kind.isWeb <;> rfl

theorem calls_mounting (c : Registration) :
    (mounting a.binder c).flatMap Move.calls =
      .create c.descriptor.key :: a.binder.toList.map fun _ => .bind c.descriptor.key := by
  cases a.binder <;> rfl

/-- The calls of a phase are those of its moves. -/
theorem calls_eq (phase : Phase) : (a.moves phase).flatMap Move.calls = a.calls phase := by
  cases phase with
  | configuration => rfl
  | coreInfrastructure => rfl
  | featureRegistration => exact calls_admissions a.settings a.features []
  | componentRegistration =>
    rw [moves, calls, List.flatMap_append, List.flatMap_cons, calls_placing, List.flatMap_map]
    exact congrArg (· ++ _) List.map_eq_flatMap.symm
  | routeRegistration =>
    rw [moves, calls, List.flatMap_cons, List.flatMap_assoc]
    exact congrArg (a.web.flatMap ·) (funext a.calls_mounting)
  | featureReady =>
    rw [moves, calls, List.flatMap_map]
    exact List.map_eq_flatMap.symm
  | validation => rfl

theorem created_placing (ordered : List Registration) :
    (ordered.map placing).filterMap Move.created? = ordered.filter (!isWeb ·) := by
  induction ordered with
  | nil => rfl
  | cons c rest ih =>
    rw [List.map_cons, List.filterMap_cons, ih, List.filter_cons, placing, isWeb]
    cases c.descriptor.kind.isWeb <;> rfl

theorem created_mounting (c : Registration) :
    (mounting a.binder c).filterMap Move.created? = [c] := by
  cases a.binder <;> rfl

/-- Only the moves of two phases build something. -/
theorem created?_eq_none {m : Move} (hbuild : m.phase ≠ .componentRegistration)
    (hroute : m.phase ≠ .routeRegistration) : m.created? = none := by
  cases m with
  | create web c => exact absurd (Phase.ofLayer_mem web) (not_or.mpr ⟨hbuild, hroute⟩)
  | _ => rfl

/-- The components that a phase builds are those that its moves build. -/
theorem created_eq (phase : Phase) : (a.moves phase).filterMap Move.created? = a.created phase := by
  cases phase with
  | componentRegistration =>
    have hscans : (a.scanners.map Move.scan).filterMap Move.created? = [] := by
      rw [List.filterMap_map]
      exact List.filterMap_eq_nil_iff.mpr fun _ _ => rfl
    rw [moves, created, List.filterMap_append, hscans, List.nil_append]
    exact created_placing a.ordered
  | routeRegistration =>
    have hmounted : (a.web.flatMap (mounting a.binder)).filterMap Move.created? = a.web := by
      rw [List.filterMap_flatMap, funext a.created_mounting, List.flatMap_singleton']
    exact hmounted
  | _ =>
    refine List.filterMap_eq_nil_iff.mpr fun m hm => ?_
    have hphase := phase_of_mem hm
    exact created?_eq_none (by simp [hphase]) (by simp [hphase])

end Agenda

/-! ## Loops that come to their end -/

/-- When all features have been looked at, those that are not left out have added what they provide
    and have become active. -/
theorem eachAdmission_eq_ok {settings : Settings} {features : List Feature} {seen : List String}
    {r s : Run} (h : each Move.act (admissions settings seen features) r = (s, none)) :
    ∃ provided, providedBy (features.filter fun f => !settings.isDisabled f.id) = .ok provided ∧
      s.pending = r.pending ++ provided ∧
        s.active = r.active ++ features.filter fun f => !settings.isDisabled f.id := by
  induction features generalizing seen r with
  | nil =>
    cases h
    exact ⟨[], rfl, (List.append_nil _).symm, (List.append_nil _).symm⟩
  | cons f rest ih =>
    rw [admissions, each_cons, Move.act] at h
    split at h
    · cases h
    · rw [next_ok, each_append] at h
      rw [List.filter_cons]
      cases hdisabled : settings.isDisabled f.id with
      | true =>
        simp only [hdisabled, if_true, each_nil, next_ok] at h
        simpa using ih h
      | false =>
        simp only [hdisabled, Bool.false_eq_true, if_false, each_singleton, Move.act] at h
        obtain ⟨part, e, -, hask⟩ | ⟨registrations, hown, hask⟩ := askFeature_cases r f
        · rw [hask] at h
          cases h
        · rw [hask, next_ok] at h
          obtain ⟨provided, hprovided, hpending, hactive⟩ := ih h
          refine ⟨registrations ++ provided, ?_, ?_, ?_⟩
          · exact allOf_cons hown hprovided
          · rw [hpending, List.append_assoc]
          · rw [hactive, List.append_assoc]
            rfl

/-- A component that belongs to the web layer is set aside when it is its turn. -/
theorem web_placing {c : Registration} {r s : Run} (h : (placing c).act r = (s, none)) :
    s.web = r.web ++ [c].filter isWeb := by
  rw [List.filter_singleton]
  unfold placing at h
  cases hweb : isWeb c with
  | true =>
    rw [isWeb] at hweb
    rw [if_pos hweb] at h
    cases h
    rfl
  | false =>
    rw [isWeb] at hweb
    rw [hweb, if_neg Bool.false_ne_true] at h
    obtain ⟨e, -, hm⟩ | ⟨item, e, -, -, hm⟩ | ⟨item, -, -, hm⟩ :=
      instantiate_cases r (.ofLayer false) c
    · cases hm.symm.trans h
    · cases hm.symm.trans h
    · cases hm.symm.trans h
      exact (List.append_nil _).symm

/-- When everything has been ordered and had its turn, what belongs to the web layer has been set
    aside. -/
theorem eachPlacing_eq_ok {r s : Run}
    (h : each Move.act (r.agenda.moves .componentRegistration) r = (s, none)) :
    ∃ found, foundBy r.inputs.scanners r.roots = .ok found ∧
      r.inputs.resolver.arrange? (r.pending ++ found) = some r.ordered ∧
        s.web = r.web ++ r.ordered.filter isWeb := by
  obtain ⟨t, hscans, hrest⟩ := each_append_eq_ok h
  have hscanned : each scanWith r.inputs.scanners r = (t, none) := by
    rw [each_map] at hscans
    exact hscans
  obtain ⟨u, e, -, hscan⟩ | ⟨found, hfound, hscan⟩ := eachScan_cases r.inputs.scanners r
  · rw [hscan] at hscanned
    cases hscanned
  rw [hscan] at hscanned
  cases hscanned
  rw [each_cons, Move.act] at hrest
  obtain ⟨pending, e, -, horder⟩ | ⟨ordered, harranged, horder⟩ := orderCollected_cases _
  · rw [horder] at hrest
    cases hrest
  rw [horder, next_ok] at hrest
  have hordered : r.ordered = ordered := by
    rw [Run.ordered, hfound]
    exact congrArg (Option.getD · []) harranged
  refine ⟨found, hfound, hordered ▸ harranged, ?_⟩
  have hplaced : each (fun c => (placing c).act) r.ordered _ = (s, none) :=
    (each_map placing r.ordered _).symm.trans hrest
  have hset :=
    each_adds (fun c _ t u (hc : (placing c).act t = (u, none)) => web_placing hc) hplaced
  rw [hset, ← List.filter_flatMap, List.flatMap_singleton']
  rfl

end BootEngine.Startup
