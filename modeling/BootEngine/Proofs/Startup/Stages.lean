import Mathlib.Data.List.Induction
import BootEngine.Proofs.Startup.Forecast
import BootEngine.Startup.Builder

/-!
# How far a run comes

A run goes through its phases one after another, and in each through the moves that its inputs
settle. What a phase leaves behind is still there later on, unless a phase in between has changed
it.

Contents:
* `Stage`, `Stage.since`, `Stage.until`: the states between phases, and what holds in them.
* `Stage.moves_eq`: the moves of the next phase.
* `Midway`, `GetsTo`, `StopsAt`, `Unbroken`, `Always`: the states between moves, and what holds all
  along.
* `Adds`: what moves and phases add to a list that is kept on the way.
* `execute_cases`: how a run ends.
-/

namespace BootEngine.Startup

open Run (next each)

/-! ## The order of the phases -/

/-- The phases that come before one are those with lower numbers. -/
theorem Phase.mem_front_iff {done : List Phase} {phase q : Phase} (h : done ++ [phase] <+: all) :
    q ∈ done ↔ q.number < phase.number := by
  obtain ⟨todo, htodo⟩ := h
  rw [List.append_assoc] at htodo
  have hnodup : all.Nodup := by decide
  have hnotin : phase ∉ done := by
    rw [← htodo] at hnodup
    exact fun hin => (List.nodup_append.mp hnodup).2.2 phase hin phase (by simp) rfl
  have hplace : all.idxOf phase = done.length := by
    rw [← htodo, List.idxOf_append_of_notMem hnotin]
    simp
  rw [number, number, hplace]
  constructor
  · intro hin
    have hlt := List.idxOf_lt_length_of_mem hin
    rw [← htodo, List.idxOf_append_of_mem hin]
    omega
  · intro hlt
    by_contra hout
    rw [← htodo, List.idxOf_append_of_notMem hout] at hlt
    omega

/-! ## Between phases -/

/-- A run with these inputs comes through some phases, and is then in this state. -/
structure Stage (inputs : Inputs) (done : List Phase) (r : Run) : Prop where
  isFront : done <+: Phase.all
  comes : runPhases done (.start inputs) = (r, none)

section Stage

variable {inputs : Inputs} {done : List Phase} {phase : Phase} {r : Run}

/-- A phase that goes well has made all of its moves. -/
theorem runPhase_eq_ok {s : Run} (h : runPhase phase r = (s, none)) :
    ∃ t, each Move.act ((r.enter phase).agenda.moves phase) (r.enter phase) = (t, none) ∧
      s = t.leave phase := by
  obtain ⟨t, e, -, hfail⟩ | ⟨t, hmoves, hok⟩ := runPhase_cases phase r
  · rw [hfail] at h
    cases h
  · rw [hok] at h
    cases h
    exact ⟨t, hmoves, rfl⟩

/-- What holds at the start and is passed on by every phase that goes well, holds at every stage. -/
theorem Stage.induction {P : List Phase → Run → Prop} (start : P [] (.start inputs))
    (step : ∀ done phase r s, Stage inputs done r → done ++ [phase] <+: Phase.all →
      each Move.act ((r.enter phase).agenda.moves phase) (r.enter phase) = (s, none) →
        P done r → P (done ++ [phase]) (s.leave phase))
    (h : Stage inputs done r) : P done r := by
  induction done using List.reverseRecOn generalizing r with
  | nil =>
    cases h.comes
    exact start
  | append_singleton done phase ih =>
    obtain ⟨t, hdone, hlast⟩ := each_append_eq_ok h.comes
    rw [each_singleton] at hlast
    obtain ⟨s, hmoves, rfl⟩ := runPhase_eq_ok hlast
    have hstage : Stage inputs done t := ⟨(List.prefix_append ..).trans h.isFront, hdone⟩
    exact step done phase t s hstage h.isFront hmoves (ih hstage)

/-- Phases that go well keep what is no business of theirs. -/
theorem keeps_of_steady {P : Run → Prop} {phases : List Phase}
    (hkeep : ∀ q ∈ phases, ∀ s t, Steady q s t → P s → P t) {s : Run}
    (h : runPhases phases s = (r, none)) (hs : P s) : P r := by
  induction phases generalizing s with
  | nil =>
    cases h
    exact hs
  | cons phase rest ih =>
    obtain ⟨t, hfirst, hrest⟩ := each_append_eq_ok (l := [phase]) h
    rw [each_singleton] at hfirst
    obtain ⟨u, hmoves, rfl⟩ := runPhase_eq_ok hfirst
    refine ih (fun q hq => hkeep q (List.mem_cons_of_mem _ hq)) hrest ?_
    exact hkeep phase (List.mem_cons_self ..) _ _ (steady_of_ok hmoves) hs

/-- What holds at the start holds until a phase whose business it is. -/
theorem Stage.until {P : Run → Prop} (h : Stage inputs done r) (hstart : P (.start inputs))
    (hkeep : ∀ q ∈ done, ∀ s t, Steady q s t → P s → P t) : P r :=
  keeps_of_steady hkeep h.comes hstart

/-- What a phase brings about holds from then on, if it is no business of the other phases. -/
theorem Stage.since {P : Run → Prop} (h : Stage inputs done r) (hin : phase ∈ done)
    (hmake : ∀ front s t, Stage inputs front s → front ++ [phase] <+: Phase.all →
      each Move.act ((s.enter phase).agenda.moves phase) (s.enter phase) = (t, none) →
        P (t.leave phase))
    (hkeep : ∀ q ∈ done, q ≠ phase → ∀ s t, Steady q s t → P s → P t) : P r := by
  obtain ⟨front, back, rfl⟩ := List.append_of_mem hin
  have hnodup : (front ++ phase :: back).Nodup := h.isFront.sublist.nodup (by decide)
  rw [← List.singleton_append, ← List.append_assoc] at h
  have hfront : front ++ [phase] <+: Phase.all := (List.prefix_append ..).trans h.isFront
  obtain ⟨u, hfirst, hback⟩ := each_append_eq_ok h.comes
  obtain ⟨s, hdone, hlast⟩ := each_append_eq_ok hfirst
  rw [each_singleton] at hlast
  obtain ⟨t, hmoves, rfl⟩ := runPhase_eq_ok hlast
  have hstage : Stage inputs front s := ⟨(List.prefix_append ..).trans hfront, hdone⟩
  refine keeps_of_steady (fun q hq => hkeep q (by simp [hq]) ?_) hback
    (hmake front s t hstage hfront hmoves)
  rintro rfl
  exact (List.nodup_cons.mp (List.nodup_append.mp hnodup).2.1).1 hq

/-! ## What holds at a stage -/

theorem Stage.inputs_eq (h : Stage inputs done r) : r.inputs = inputs :=
  h.until (P := (·.inputs = inputs)) rfl fun _ _ _ _ hst hs => hst.inputs.trans hs

theorem not_mem_front (h : done ++ [phase] <+: Phase.all) : phase ∉ done :=
  fun hin => Nat.lt_irrefl _ ((Phase.mem_front_iff h).mp hin)

/-- Once they have been read, the settings are those of the sources. -/
theorem Stage.settings_eq (h : Stage inputs done r) (hin : .configuration ∈ done) :
    Settings.load inputs.config = .ok r.settings ∧
      r.roots = r.settings.roots.foldl addRoot inputs.roots := by
  refine h.since (P := fun r => Settings.load inputs.config = .ok r.settings ∧
    r.roots = r.settings.roots.foldl addRoot inputs.roots) hin ?_ ?_
  · intro front s t hs hfront hmoves
    have hroots : s.roots = inputs.roots :=
      hs.until (P := (·.roots = inputs.roots)) rfl fun q hq _ _ hst he =>
        (hst.settings (ne_of_mem_of_not_mem hq (not_mem_front hfront))).2.trans he
    obtain ⟨e, -, hact⟩ | ⟨settings, hload, hact⟩ := configure_cases (s.enter .configuration)
    · rw [Agenda.moves, each_singleton, Move.act, hact] at hmoves
      cases hmoves
    · rw [Agenda.moves, each_singleton, Move.act, hact] at hmoves
      cases hmoves
      exact ⟨hs.inputs_eq ▸ hload, congrArg (settings.roots.foldl addRoot) hroots⟩
  · intro q _ hq s t hst hs
    rw [(hst.settings hq).1, (hst.settings hq).2]
    exact hs

theorem Stage.settings_inputs (h : Stage inputs done r) (hin : .configuration ∈ done) :
    r.settings = inputs.settings ∧ r.roots = inputs.allRoots := by
  obtain ⟨hload, hroots⟩ := h.settings_eq hin
  have hsettings : r.settings = inputs.settings := by
    rw [Inputs.settings, hload]
    rfl
  exact ⟨hsettings, by rw [hroots, hsettings, Inputs.allRoots]⟩

/-- The data source and its coordinator have been registered. -/
def Equipped (inputs : Inputs) (r : Run) : Prop :=
  ∃ source, inputs.source = some source ∧ r.registry.dataSource = some source.name ∧
    r.registry.coordinator = r.coordinator ∧
      r.coordinator = some ⟨source.name, inputs.settings.acquireLimit⟩

theorem Equipped.steady {q : Phase} {s t : Run} (h : Equipped inputs s) (hst : Steady q s t)
    (hq : q ≠ .coreInfrastructure) : Equipped inputs t := by
  obtain ⟨source, hsource, hname, hsame, hlimit⟩ := h
  obtain ⟨hcoordinator, hregistered, hdata⟩ := hst.core hq
  exact ⟨source, hsource, hdata.trans hname, by rw [hregistered, hcoordinator, hsame],
    hcoordinator.trans hlimit⟩

theorem Stage.equipped (h : Stage inputs done r) (hin : .coreInfrastructure ∈ done) :
    Equipped inputs r := by
  refine h.since hin ?_ ?_
  · intro front s t hs hfront hmoves
    have hsettings := (hs.settings_inputs ((Phase.mem_front_iff hfront).mpr (by decide))).1
    obtain ⟨e, -, hact⟩ | ⟨source, hsource, hact⟩ :=
      registerCore_cases (s.enter .coreInfrastructure)
    · rw [Agenda.moves, each_singleton, Move.act, hact] at hmoves
      cases hmoves
    · rw [Agenda.moves, each_singleton, Move.act, hact] at hmoves
      cases hmoves
      refine ⟨source, hs.inputs_eq ▸ hsource, rfl, rfl, ?_⟩
      rw [← hsettings]
      rfl
  · exact fun q _ hq s t hst hs => hs.steady hst hq

/-- What the phase of the features brings about. -/
theorem Stage.admitted {s t : Run} (h : Stage inputs done s)
    (hfront : done ++ [.featureRegistration] <+: Phase.all)
    (hmoves : each Move.act ((s.enter .featureRegistration).agenda.moves .featureRegistration)
      (s.enter .featureRegistration) = (t, none)) :
    providedBy inputs.enabled = .ok t.pending ∧ t.active = inputs.enabled := by
  have hsettings := (h.settings_inputs ((Phase.mem_front_iff hfront).mpr (by decide))).1
  have hnew := not_mem_front hfront
  have hactive : s.active = [] :=
    h.until (P := (·.active = [])) rfl fun q hq _ _ hst he =>
      (hst.active (ne_of_mem_of_not_mem hq hnew)).trans he
  have hbuild : .componentRegistration ∉ done := fun hin =>
    absurd ((Phase.mem_front_iff hfront).mp hin) (by decide)
  have hpending : s.pending = [] :=
    h.until (P := (·.pending = [])) rfl fun q hq _ _ hst he =>
      (hst.pending (ne_of_mem_of_not_mem hq hnew) (ne_of_mem_of_not_mem hq hbuild)).trans he
  obtain ⟨provided, hprovided, hp, ha⟩ := eachAdmission_eq_ok hmoves
  simp only [Run.enter, Run.note, h.inputs_eq, hsettings, hactive, hpending, List.nil_append]
    at hprovided hp ha
  exact ⟨hp ▸ hprovided, ha⟩

theorem Stage.active_eq (h : Stage inputs done r) (hin : .featureRegistration ∈ done) :
    r.active = inputs.enabled :=
  h.since (P := (·.active = inputs.enabled)) hin
    (fun _ _ _ hs hfront hmoves => (hs.admitted hfront hmoves).2)
    fun _ _ hq _ _ hst hs => (hst.active hq).trans hs

/-- What the features provide is there until it is built. -/
theorem Stage.pending_eq (h : Stage inputs done r) (hin : .featureRegistration ∈ done)
    (hout : .componentRegistration ∉ done) : providedBy inputs.enabled = .ok r.pending := by
  refine h.since (P := fun r => providedBy inputs.enabled = .ok r.pending) hin
    (fun _ _ _ hs hfront hmoves => (hs.admitted hfront hmoves).1) ?_
  intro q hq hne s t hst hs
  rw [hst.pending hne (ne_of_mem_of_not_mem hq hout)]
  exact hs

/-- When it is to be built, what has been collected stands in the order of the inputs. -/
theorem Stage.ordered_eq (h : Stage inputs done r)
    (hfront : done ++ [.componentRegistration] <+: Phase.all) : r.ordered = inputs.ordered := by
  have hroots := (h.settings_inputs ((Phase.mem_front_iff hfront).mpr (by decide))).2
  have hpending :=
    h.pending_eq ((Phase.mem_front_iff hfront).mpr (by decide)) (not_mem_front hfront)
  rw [Run.ordered, Inputs.ordered, Inputs.collected, h.inputs_eq, hroots, hpending]
  cases foundBy inputs.scanners inputs.allRoots <;> rfl

/-- What the phase of the components brings about. -/
theorem Stage.placed {s t : Run} (h : Stage inputs done s)
    (hfront : done ++ [.componentRegistration] <+: Phase.all)
    (hmoves : each Move.act ((s.enter .componentRegistration).agenda.moves .componentRegistration)
      (s.enter .componentRegistration) = (t, none)) :
    (∃ collected, inputs.collected = .ok collected ∧
        inputs.resolver.arrange? collected = some inputs.ordered) ∧
      t.web = inputs.ordered.filter isWeb := by
  have hroots := (h.settings_inputs ((Phase.mem_front_iff hfront).mpr (by decide))).2
  have hpending :=
    h.pending_eq ((Phase.mem_front_iff hfront).mpr (by decide)) (not_mem_front hfront)
  have hordered : (s.enter .componentRegistration).ordered = inputs.ordered := h.ordered_eq hfront
  have hweb : s.web = [] :=
    h.until (P := (·.web = [])) rfl fun q hq _ _ hst he =>
      (hst.web (ne_of_mem_of_not_mem hq (not_mem_front hfront)) (by
        rintro rfl
        exact absurd ((Phase.mem_front_iff hfront).mp hq) (by decide))).trans he
  obtain ⟨found, hfound, harranged, hset⟩ := eachPlacing_eq_ok hmoves
  rw [hordered] at harranged hset
  simp only [Run.enter, Run.note, h.inputs_eq, hroots, hweb, List.nil_append]
    at hfound harranged hset
  refine ⟨⟨s.pending ++ found, ?_, harranged⟩, hset⟩
  rw [Inputs.collected, hpending, hfound]
  rfl

/-- Once components have been built, there was an order to build them in. -/
theorem Stage.arranged (h : Stage inputs done r) (hin : .componentRegistration ∈ done) :
    ∃ collected, inputs.collected = .ok collected ∧
      inputs.resolver.arrange? collected = some inputs.ordered :=
  h.since (P := fun _ => ∃ collected, inputs.collected = .ok collected ∧
      inputs.resolver.arrange? collected = some inputs.ordered) hin
    (fun _ _ _ hs hfront hmoves => (hs.placed hfront hmoves).1) fun _ _ _ _ _ _ hs => hs

/-- What has been set aside is there until it is taken up. -/
theorem Stage.web_eq (h : Stage inputs done r) (hin : .componentRegistration ∈ done)
    (hout : .routeRegistration ∉ done) : r.web = inputs.ordered.filter isWeb :=
  h.since (P := (·.web = inputs.ordered.filter isWeb)) hin
    (fun _ _ _ hs hfront hmoves => (hs.placed hfront hmoves).2)
    fun _ hq hne _ _ hst hs => (hst.web hne (ne_of_mem_of_not_mem hq hout)).trans hs

/-- The moves of the next phase are those that the inputs settle. -/
theorem Stage.moves_eq (h : Stage inputs done r) (hfront : done ++ [phase] <+: Phase.all) :
    (r.enter phase).agenda.moves phase = inputs.agenda.moves phase := by
  have hbefore : ∀ q : Phase, q.number < phase.number → q ∈ done := fun q =>
    (Phase.mem_front_iff hfront).mpr
  have hnew := not_mem_front hfront
  change Agenda.moves ⟨r.settings, r.inputs.features, r.inputs.scanners, r.ordered, r.web,
    r.inputs.binder, r.active⟩ phase = _
  rw [h.inputs_eq]
  cases phase with
  | configuration => rfl
  | coreInfrastructure => rfl
  | featureRegistration =>
    rw [(h.settings_inputs (hbefore _ (by decide))).1]
    rfl
  | componentRegistration =>
    rw [h.ordered_eq hfront]
    rfl
  | routeRegistration =>
    rw [h.web_eq (hbefore _ (by decide)) hnew]
    rfl
  | featureReady =>
    rw [h.active_eq (hbefore _ (by decide))]
    rfl
  | validation => rfl

end Stage

/-! ## Between moves -/

/-- A run with these inputs comes through some phases, begins another one and makes some of its
    moves, and is then in this state. -/
structure Midway (inputs : Inputs) (done : List Phase) (phase : Phase) (made : List Move)
    (r : Run) : Prop where
  isFront : done ++ [phase] <+: Phase.all
  isBegun : made <+: inputs.agenda.moves phase
  comes : ∃ s, Stage inputs done s ∧ each Move.act made (s.enter phase) = (r, none)

/-- A run with these inputs gets to a move: everything before it goes well. -/
def GetsTo (inputs : Inputs) (m : Move) (r : Run) : Prop :=
  ∃ done phase made, made ++ [m] <+: inputs.agenda.moves phase ∧ Midway inputs done phase made r

/-- A run with these inputs stops in some phase at a move that fails: the phases before it and the
    moves `made` have gone well, and `t` is the state that the move leaves. -/
structure StopsAt (inputs : Inputs) (done : List Phase) (phase : Phase) (made : List Move)
    (m : Move) (t : Run) (e : StartupError) : Prop where
  isNext : made ++ [m] <+: inputs.agenda.moves phase
  fails : ∃ s, Midway inputs done phase made s ∧ m.act s = (t, some e)

section Midway

variable {inputs : Inputs} {done : List Phase} {phase : Phase} {made : List Move} {r : Run}

/-- Something holds in a run with these inputs as long as no move has failed: between its phases and
    between its moves. -/
structure Unbroken (inputs : Inputs) (P : Run → Prop) : Prop where
  stage : ∀ {done r}, Stage inputs done r → P r
  midway : ∀ {done phase made r}, Midway inputs done phase made r → P r

/-- What holds at the start, and is kept by every move that a run gets to and that goes well, holds
    as long as no move has failed. -/
theorem Unbroken.of_moves {P : Run → Prop} (start : P (.start inputs))
    (enter : ∀ phase r, P r → P (r.enter phase)) (leave : ∀ phase r, P r → P (r.leave phase))
    (move : ∀ m r s, GetsTo inputs m r → m.act r = (s, none) → P r → P s) :
    Unbroken inputs P := by
  have hmoves : ∀ {done phase made s r}, Stage inputs done s → P s →
      done ++ [phase] <+: Phase.all → made <+: inputs.agenda.moves phase →
        each Move.act made (s.enter phase) = (r, none) → P r := by
    intro done phase made s r hs hp hfront hmade heach
    induction made using List.reverseRecOn generalizing r with
    | nil =>
      cases heach
      exact enter phase s hp
    | append_singleton made m ih =>
      obtain ⟨t, hbefore, hact⟩ := each_append_eq_ok heach
      rw [each_singleton] at hact
      have hshort := (List.prefix_append made [m]).trans hmade
      exact move m t r ⟨done, phase, made, hmade, hfront, hshort, s, hs, hbefore⟩ hact
        (ih hshort hbefore)
  have hstage : ∀ {done r}, Stage inputs done r → P r := by
    intro done r h
    refine h.induction (P := fun _ r => P r) start ?_
    intro done phase s t hs hfront hall hp
    rw [hs.moves_eq hfront] at hall
    exact leave phase t (hmoves hs hp hfront (List.prefix_refl _) hall)
  refine ⟨hstage, ?_⟩
  rintro done phase made r ⟨hfront, hmade, s, hs, heach⟩
  exact hmoves hs (hstage hs) hfront hmade heach

/-- Something holds in a run with these inputs all along: between its phases, between its moves, and
    after a move that fails. -/
structure Always (inputs : Inputs) (P : Run → Prop) : Prop extends Unbroken inputs P where
  stops : ∀ {done phase made m t e}, StopsAt inputs done phase made m t e → P t

/-- What holds at the start, and is kept by every move that a run gets to, always holds. -/
theorem Always.of_moves {P : Run → Prop} (start : P (.start inputs))
    (enter : ∀ phase r, P r → P (r.enter phase)) (leave : ∀ phase r, P r → P (r.leave phase))
    (move : ∀ m r, GetsTo inputs m r → P r → P (m.act r).1) : Always inputs P := by
  have hunbroken : Unbroken inputs P := .of_moves start enter leave fun m r s hm hact hp => by
    have hmove := move m r hm hp
    rwa [hact] at hmove
  refine { hunbroken with stops := fun h => ?_ }
  obtain ⟨s, hs, hfails⟩ := h.fails
  have hmove := move _ s ⟨_, _, _, h.isNext, hs⟩ (hunbroken.midway hs)
  rwa [hfails] at hmove

/-- The registry and the report are in order all along. -/
theorem always_tidy : Always inputs Tidy :=
  .of_moves (.start inputs) (fun phase _ h => h.enter phase) (fun phase _ h => h.leave phase)
    fun _ _ _ h => Move.tidy_act h

/-- In the middle of a phase nothing has changed but what belongs to it. -/
theorem Midway.frame (h : Midway inputs done phase made r) :
    ∃ s, Stage inputs done s ∧ Frame phase s r := by
  obtain ⟨-, hmade, s, hs, heach⟩ := h
  have hmoves := frame_each made (fun m hm => Agenda.phase_of_mem (hmade.subset hm)) (s.enter phase)
  rw [heach] at hmoves
  exact ⟨s, hs, (Frame.note phase s _).trans hmoves⟩

theorem StopsAt.isFront {m : Move} {t : Run} {e : StartupError}
    (h : StopsAt inputs done phase made m t e) : done ++ [phase] <+: Phase.all := by
  obtain ⟨s, hs, -⟩ := h.fails
  exact hs.isFront

/-- Nothing else has changed either when a move has failed. -/
theorem StopsAt.frame {m : Move} {t : Run} {e : StartupError}
    (h : StopsAt inputs done phase made m t e) : ∃ s, Stage inputs done s ∧ Frame phase s t := by
  obtain ⟨r, hr, hfails⟩ := h.fails
  obtain ⟨s, hs, hframe⟩ := hr.frame
  have hmove := m.frame_act r
  rw [hfails, Agenda.phase_of_next h.isNext] at hmove
  exact ⟨s, hs, hframe.trans hmove⟩

theorem Midway.equipped (h : Midway inputs done phase made r) (hin : .coreInfrastructure ∈ done) :
    Equipped inputs r := by
  obtain ⟨s, hs, hframe⟩ := h.frame
  refine (hs.equipped hin).steady hframe.toSteady ?_
  rintro rfl
  exact not_mem_front h.isFront hin

end Midway

/-! ## Lists that are kept on the way -/

/-- A list that moves and listeners add to: what each phase adds when it begins, what each move
    adds that goes well, and what each phase adds when it has gone well. -/
structure Adds {γ : Type} (inputs : Inputs) (seen : Run → List γ) (opening : Phase → List γ)
    (added : Move → List γ) (closing : Phase → List γ) : Prop where
  start : seen (.start inputs) = []
  enter : ∀ phase r, r.inputs = inputs → seen (r.enter phase) = seen r ++ opening phase
  move : ∀ m r s, Move.act m r = (s, none) → seen s = seen r ++ added m
  leave : ∀ phase r, r.inputs = inputs → seen (r.leave phase) = seen r ++ closing phase

namespace Adds

variable {γ : Type} {inputs : Inputs} {seen : Run → List γ} {opening closing : Phase → List γ}
  {added : Move → List γ} {done : List Phase} {phase : Phase} {made : List Move} {r : Run}

theorem stage (h : Adds inputs seen opening added closing) (hr : Stage inputs done r) :
    seen r = done.flatMap fun phase =>
      opening phase ++ (inputs.agenda.moves phase).flatMap added ++ closing phase := by
  refine hr.induction (P := fun done r => seen r = done.flatMap fun phase =>
    opening phase ++ (inputs.agenda.moves phase).flatMap added ++ closing phase) h.start ?_
  intro done phase s t hs hfront hall hseen
  have hmoves := each_adds (fun m _ => h.move m) hall
  have hinputs : t.inputs = inputs := (steady_of_ok hall).inputs.trans hs.inputs_eq
  rw [h.leave phase t hinputs, hmoves, h.enter phase s hs.inputs_eq, hseen, hs.moves_eq hfront,
    List.flatMap_append, List.flatMap_singleton]
  simp only [List.append_assoc]

theorem midway (h : Adds inputs seen opening added closing)
    (hr : Midway inputs done phase made r) :
    ∃ s, Stage inputs done s ∧ seen r = seen s ++ opening phase ++ made.flatMap added := by
  obtain ⟨-, -, s, hs, heach⟩ := hr
  exact ⟨s, hs, by rw [each_adds (fun m _ => h.move m) heach, h.enter phase s hs.inputs_eq]⟩

end Adds

/-! ## The calls, the components and the report -/

namespace Inputs

variable (inputs : Inputs)

/-- The calls of a phase with those to the listeners. -/
def phaseCalls (phase : Phase) : List Call :=
  inputs.listeners.map (.started · phase) ++ inputs.agenda.calls phase ++
    inputs.listeners.map (.completed · phase)

/-- The entries of the report for the components of a phase. -/
def registered (phase : Phase) : List Registered :=
  (inputs.agenda.created phase).map fun c => ⟨c.descriptor.key, c.descriptor.typeName, phase⟩

end Inputs

section Kept

variable {inputs : Inputs} {done : List Phase} {phase : Phase} {made : List Move} {r : Run}

/-- Moves of one phase report what they build as components of that phase. -/
theorem registered_of_moves {moves : List Move} (h : ∀ m ∈ moves, m.phase = phase) :
    moves.flatMap Move.registered = (moves.filterMap Move.created?).map fun c =>
      ⟨c.descriptor.key, c.descriptor.typeName, phase⟩ := by
  induction moves with
  | nil => rfl
  | cons m rest ih =>
    rw [List.flatMap_cons, ih fun m hm => h m (List.mem_cons_of_mem _ hm), Move.registered,
      h m (List.mem_cons_self ..), List.filterMap_cons]
    cases m.created? <;> rfl

theorem registered_moves (phase : Phase) :
    (inputs.agenda.moves phase).flatMap Move.registered = inputs.registered phase := by
  rw [registered_of_moves fun _ hm => Agenda.phase_of_mem hm, Agenda.created_eq, Inputs.registered]

theorem callsOf_listeners {entry : String → Entry} {call : String → Call}
    (h : ∀ listener, (entry listener).call? = some (call listener)) (listeners : List String) :
    callsOf (listeners.map entry) = listeners.map call := by
  rw [callsOf, List.filterMap_map, ← List.filterMap_eq_map]
  exact congrArg (listeners.filterMap ·) (funext h)

theorem callsOf_enter (phase : Phase) (r : Run) : callsOf (r.enter phase).trace =
    callsOf r.trace ++ r.inputs.listeners.map (.started · phase) := by
  rw [Run.enter, Run.note, callsOf_append, callsOf_listeners fun _ => rfl]

theorem callsOf_leave (phase : Phase) (r : Run) : callsOf (r.leave phase).trace =
    callsOf r.trace ++ r.inputs.listeners.map (.completed · phase) := by
  rw [Run.leave, Run.note, callsOf_append, callsOf_listeners fun _ => rfl]
  rfl

theorem adds_calls : Adds inputs (fun r => callsOf r.trace)
    (fun phase => inputs.listeners.map (.started · phase)) Move.calls
    fun phase => inputs.listeners.map (.completed · phase) where
  start := rfl
  enter phase r hr := hr ▸ callsOf_enter phase r
  move _ _ _ := Move.callsOf_of_ok
  leave phase r hr := hr ▸ callsOf_leave phase r

theorem adds_components : Adds inputs (·.report.components) (fun _ => []) Move.registered
    fun _ => [] where
  start := rfl
  enter _ _ _ := (List.append_nil _).symm
  move m r s h := by rw [Move.report_of_ok h]
  leave _ _ _ := (List.append_nil _).symm

theorem Stage.calls_eq (h : Stage inputs done r) :
    callsOf r.trace = done.flatMap inputs.phaseCalls := by
  refine (adds_calls.stage h).trans (congrArg (done.flatMap ·) (funext fun phase => ?_))
  rw [Agenda.calls_eq, Inputs.phaseCalls]

theorem Stage.components_eq (h : Stage inputs done r) :
    r.report.components = done.flatMap inputs.registered := by
  refine (adds_components.stage h).trans (congrArg (done.flatMap ·) (funext fun phase => ?_))
  rw [List.nil_append, List.append_nil, registered_moves]

/-- The calls of a run that is in the middle of a phase. -/
theorem Midway.calls_eq (h : Midway inputs done phase made r) :
    callsOf r.trace = done.flatMap inputs.phaseCalls ++ inputs.listeners.map (.started · phase) ++
      made.flatMap Move.calls := by
  obtain ⟨s, hs, hseen⟩ := adds_calls.midway h
  rw [hseen, hs.calls_eq]

/-- The components that a run in the middle of a phase has reported are those that have been built
    in the phases before, and then those of its moves. -/
theorem Midway.components_eq (h : Midway inputs done phase made r) :
    r.report.components = done.flatMap inputs.registered ++
      (made.filterMap Move.created?).map fun c =>
        ⟨c.descriptor.key, c.descriptor.typeName, phase⟩ := by
  obtain ⟨s, hs, hseen⟩ := adds_components.midway h
  rw [hseen, hs.components_eq, List.append_nil,
    registered_of_moves fun m hm => Agenda.phase_of_mem (h.isBegun.subset hm)]

end Kept

/-! ## How a run ends -/

/-- The state after a run has gone well. -/
def Run.finished (r : Run) : Run :=
  { r with report := { r.report with completedAt := some r.inputs.stopwatch.completedAt } }

/-- A run comes through all phases, or stops at a move that fails; what has been registered is then
    released. -/
theorem runPhases_cases (inputs : Inputs) :
    (∃ r, Stage inputs Phase.all r ∧ runPhases Phase.all (.start inputs) = (r, none)) ∨
      ∃ done phase made m t e, StopsAt inputs done phase made m t e ∧
        runPhases Phase.all (.start inputs) = (t.broken phase e, some e) := by
  obtain ⟨r, hall⟩ | ⟨done, phase, todo, s, u, e, hsplit, hdone, hphase, hall⟩ :=
    @each_cases Phase runPhase Phase.all (.start inputs)
  · exact .inl ⟨r, ⟨List.prefix_refl _, hall⟩, hall⟩
  · have hfront : done ++ [phase] <+: Phase.all := ⟨todo, by rw [hsplit]; simp⟩
    have hs : Stage inputs done s := ⟨(List.prefix_append ..).trans hfront, hdone⟩
    obtain ⟨v, f, hmoves, hfail⟩ | ⟨v, hmoves, hok⟩ := runPhase_cases phase s
    · rw [hfail] at hphase
      cases hphase
      rw [hs.moves_eq hfront] at hmoves
      obtain ⟨w, hw⟩ | ⟨made, m, rest, w, t, f, heq, hmade, hm, hend⟩ :=
        each_cases (inputs.agenda.moves phase) (s.enter phase)
      · rw [hw] at hmoves
        cases hmoves
      · rw [hend] at hmoves
        cases hmoves
        refine .inr ⟨done, phase, made, m, _, _, ⟨⟨rest, by rw [heq]; simp⟩, w, ?_, hm⟩, hall⟩
        exact ⟨hfront, ⟨m :: rest, heq.symm⟩, s, hs, hmade⟩
    · rw [hok] at hphase
      cases hphase

/-- An executor gives back an application of a run that has come through all phases, or the failure
    of the move at which the run has stopped. -/
theorem execute_cases (inputs : Inputs) :
    (∃ r c, Stage inputs Phase.all r ∧ r.coordinator = some c ∧
        (Executor.ofInputs inputs).execute =
          (r.trace, .ok (.ofRun r.finished c), ⟨none, true⟩)) ∨
      ∃ done phase made m t e, StopsAt inputs done phase made m t e ∧
        (Executor.ofInputs inputs).execute =
          ((t.broken phase e).trace, .error e, ⟨none, false⟩) := by
  obtain ⟨r, hr, hall⟩ | ⟨done, phase, made, m, t, e, hstop, hall⟩ := runPhases_cases inputs
  · obtain ⟨source, -, -, -, hc⟩ := hr.equipped (Phase.mem_all _)
    refine .inl ⟨r, _, hr, hc, ?_⟩
    simp only [Executor.execute, Executor.ofInputs, Run.launch, hall, hc]
    rw [Run.finished, hr.inputs_eq]
    rfl
  · refine .inr ⟨done, phase, made, m, t, e, hstop, ?_⟩
    simp only [Executor.execute, Executor.ofInputs, Run.launch, hall]

/-- What a builder hands to a run. -/
def Builder.inputs (stopwatch : Stopwatch) (b : Builder) : Inputs :=
  ⟨b.roots, b.allScanners, b.resolver, b.features, b.source, b.config, b.binder, b.listeners,
    stopwatch⟩

/-- If a builder gives an executor, it is one for what has been collected. -/
theorem Builder.executor_eq_ok {b : Builder} {inForce : Bool} {stopwatch : Stopwatch} {x : Executor}
    (h : b.executor inForce stopwatch = .ok x) : x = .ofInputs (b.inputs stopwatch) := by
  unfold executor at h
  dsimp only at h
  split at h
  · exact (Except.ok.inj h).symm
  · split at h
    · cases h
    · exact (Except.ok.inj h).symm

end BootEngine.Startup
