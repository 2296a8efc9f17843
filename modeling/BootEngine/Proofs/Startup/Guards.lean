import BootEngine.Proofs.Startup.Layers
import BootEngine.Proofs.Startup.Protocol

/-!
# Checks that never fail

A run checks some things that it has seen to itself: that a component is in the registry before it
is bound, that whatever has been reported is found again in the end, and that there is a
coordinator. None of these checks ever fails, whatever features, factories, binders and resolvers
do; and if the resolver goes by the needs, then no key is ever taken when a component is put in.

Contents:
* `Move.Blames`, `Move.blames_act`: the failures that each move can have.
* `Tidy.validate_eq`: the check in the end finds whatever has been reported.
* `GetsTo.find?_eq_none`: the key of a component that is about to be built is not taken.
* `GuardsHold`, `guards_hold_of_execute`: the checks of every run.
-/

namespace BootEngine.Startup

open Component (Key Instance)
open Run (next each)

/-! ## Failures of moves -/

/-- A move can fail in this way. -/
def Move.Blames : Move → StartupError → Prop
  | .configure, e => ∃ source, e = .settings source
  | .registerCore, e => e = .phaseFailed Phase.coreInfrastructure.text "未提供数据源"
  | .vet _ f, e => e = .featureFailed f.id "特性ID重复"
  | .provide _, e => ∃ source, e = .discovery source
  | .scan _, e => ∃ source, e = .discovery source
  | .order, e => (∃ source, e = .dependency source) ∨ ∃ count planned, e = misplanned count planned
  | .setAside _, _ => False
  | .create .., e => ∃ source, e = .dependency source
  | .takeUp, _ => False
  | .bind _ key, e => (∃ source, e = .dependency source) ∨
      ∃ reason, e = .phaseFailed Phase.routeRegistration.text
        ("绑定路由 " ++ key.text ++ " 失败: " ++ reason)
  | .ready f, e => ∃ message, e = .featureFailed f.id message
  | .check, e => ∃ typeName key, e = .missingAfterRegistration typeName key

section Failures

variable {m : Move} {r s : Run} {e : StartupError}

theorem blames_order (h : orderCollected r = (s, some e)) : Move.order.Blames e := by
  unfold orderCollected at h
  dsimp only at h
  split at h
  · cases h
    exact .inl ⟨_, rfl⟩
  · split at h
    · cases h
      exact .inr ⟨_, _, rfl⟩
    · cases h

theorem blames_create {web : Bool} {c : Registration} {phase : Phase}
    (h : instantiate phase c r = (s, some e)) : (Move.create web c).Blames e := by
  obtain ⟨f, -, hm⟩ | ⟨item, f, -, -, hm⟩ | ⟨item, -, -, hm⟩ := instantiate_cases r phase c <;>
    rw [hm] at h <;> cases h
  · exact ⟨f, rfl⟩
  · exact ⟨f, rfl⟩

theorem blames_bind {binder : Binder} {key : Key} (h : bindRoute binder key r = (s, some e)) :
    (Move.bind binder key).Blames e := by
  unfold bindRoute at h
  split at h
  · cases h
    exact .inl ⟨_, rfl⟩
  · dsimp only at h
    split at h
    · cases h
    · cases h
      exact .inr ⟨_, rfl⟩

theorem blames_check (h : checkRegistered r = (s, some e)) : Move.check.Blames e := by
  unfold checkRegistered validate at h
  dsimp only at h
  cases hfind : r.report.components.find? fun c =>
      !(r.registry.get c.key.kind (some c.key.name)).toBool with
  | none =>
    rw [hfind] at h
    cases h
  | some c =>
    rw [hfind] at h
    cases h
    exact ⟨_, _, rfl⟩

/-- A move that fails, fails in one of its own ways. -/
theorem Move.blames_act (h : m.act r = (s, some e)) : m.Blames e := by
  cases m with
  | configure =>
    obtain ⟨f, -, hm⟩ | ⟨settings, -, hm⟩ := configure_cases r <;> rw [act, hm] at h <;> cases h
    exact ⟨f, rfl⟩
  | registerCore =>
    obtain ⟨f, hf, hm⟩ | ⟨source, -, hm⟩ := registerCore_cases r <;> rw [act] at h
    · unfold Startup.registerCore at h
      split at h <;> cases h
      rfl
    · rw [hm] at h
      cases h
  | vet seen f =>
    rw [act] at h
    split at h <;> cases h
    rfl
  | provide f =>
    obtain ⟨part, f, -, hm⟩ | ⟨registrations, -, hm⟩ := askFeature_cases r f <;>
      rw [act, hm] at h <;> cases h
    exact ⟨f, rfl⟩
  | scan s =>
    obtain ⟨f, -, hm⟩ | ⟨found, -, hm⟩ := scanWith_cases r s <;> rw [act, hm] at h <;> cases h
    exact ⟨f, rfl⟩
  | order => exact blames_order h
  | setAside registration => cases h
  | create web registration => exact blames_create h
  | takeUp => cases h
  | bind binder key => exact blames_bind h
  | ready f =>
    obtain ⟨g, -, hm⟩ | ⟨-, hm⟩ := notify_cases r f <;> rw [act, hm] at h <;> cases h
    exact ⟨_, rfl⟩
  | check => exact blames_check h

end Failures

/-! ## What is reported is found -/

/-- In a state that is in order, the check finds whatever has been reported. -/
theorem Tidy.validate_eq {r : Run} (h : Tidy r) :
    validate r.registry r.report.components = ([], .ok r.report.components.length) := by
  have hfind : (r.report.components.find? fun c =>
      !(r.registry.get c.key.kind (some c.key.name)).toBool) = none := by
    refine List.find?_eq_none.mpr fun c hc => ?_
    have hkey : c.key ∈ r.registry.entries.map Prod.fst := h.reported ▸ List.mem_map_of_mem hc
    obtain ⟨item, hitem⟩ := Registry.exists_get_of_mem h.isOpen hkey
    rw [hitem]
    exact Bool.false_ne_true
  unfold validate
  dsimp only
  rw [hfind]

theorem Tidy.check_eq {r : Run} (h : Tidy r) : Move.check.act r = (r.note [], none) := by
  rw [Move.act, checkRegistered, h.validate_eq]
  rfl

section Guards

variable {inputs : Inputs} {done : List Phase} {phase : Phase} {made : List Move} {m : Move}
  {r t : Run} {e : StartupError}

/-- No run stops at its last check. -/
theorem StopsAt.ne_check (h : StopsAt inputs done phase made m t e) : m ≠ .check := by
  rintro rfl
  obtain ⟨s, hs, hfails⟩ := h.fails
  rw [(always_tidy.midway hs).check_eq] at hfails
  cases hfails

theorem StopsAt.blames (h : StopsAt inputs done phase made m t e) : m.Blames e := by
  obtain ⟨s, -, hfails⟩ := h.fails
  exact Move.blames_act hfails

/-- A run does not stop because something reported is missing. -/
theorem StopsAt.ne_missing (h : StopsAt inputs done phase made m t e) (typeName key : String) :
    e ≠ .missingAfterRegistration typeName key := by
  rintro rfl
  have hm := h.ne_check
  have hblames := h.blames
  cases m with
  | check => exact hm rfl
  | order => obtain ⟨_, h⟩ | ⟨_, _, h⟩ := hblames <;> cases h
  | bind binder key => obtain ⟨_, h⟩ | ⟨_, h⟩ := hblames <;> cases h
  | registerCore => cases hblames
  | vet seen f => cases hblames
  | setAside c => exact hblames
  | takeUp => exact hblames
  | _ =>
    obtain ⟨_, h⟩ := hblames
    cases h

/-- A run does not stop because it has no coordinator. -/
theorem StopsAt.ne_unequipped (h : StopsAt inputs done phase made m t e) :
    e ≠ .phaseFailed Phase.coreInfrastructure.text "事务协调器未注册" := by
  rintro rfl
  have hblames := h.blames
  cases m with
  | order =>
    obtain ⟨_, h⟩ | ⟨_, _, h⟩ := hblames
    · cases h
    · exact absurd (StartupError.phaseFailed.inj h).1 (by decide)
  | bind binder key =>
    obtain ⟨_, h⟩ | ⟨_, h⟩ := hblames
    · cases h
    · exact absurd (StartupError.phaseFailed.inj h).1 (by decide)
  | registerCore => exact absurd (StartupError.phaseFailed.inj hblames).2 (by decide)
  | vet seen f => cases hblames
  | setAside c => exact hblames
  | takeUp => exact hblames
  | check =>
    obtain ⟨_, _, h⟩ := hblames
    cases h
  | _ =>
    obtain ⟨_, h⟩ := hblames
    cases h

/-- No move takes anything out of the registry, and none closes it. -/
theorem GetsTo.registry_act (h : GetsTo inputs m r) :
    (m.act r).1.registry.closed = false ∧
      r.registry.entries <+: (m.act r).1.registry.entries := by
  obtain ⟨done, phase, made, -, hmid⟩ := h
  refine ⟨(Move.tidy_act (always_tidy.midway hmid)).isOpen, ?_⟩
  obtain hsame | ⟨web, c, item, -, -, hadded⟩ := m.entries_act r
  · rw [hsame]
  · rw [hadded]
    exact List.prefix_append ..

/-- If the resolver goes by the needs, then the key of a component that is about to be built is not
    taken. -/
theorem GetsTo.find?_eq_none {web : Bool} {c : Registration}
    (hneeds : inputs.resolver.resolve = Plan.resolve) (h : GetsTo inputs (.create web c) r) :
    r.registry.find? c.descriptor.key = none := by
  obtain ⟨before, after, hsplit, hkeys⟩ := h.position
  have hin : c ∈ inputs.layers := by rw [hsplit]; simp
  obtain ⟨collected, -, harranged⟩ := Inputs.exists_of_mem_layers hin
  have hdistinct := (sound_of_arrange hneeds harranged).1.distinct
  have hlayers : (inputs.layers.map (·.descriptor.key)).Nodup := by
    rw [List.map_map] at hdistinct
    exact ((layers_perm harranged).map _).nodup_iff.mpr hdistinct
  rw [Registry.find?_eq_none_iff, hkeys]
  rw [hsplit, List.map_append, List.map_cons] at hlayers
  exact fun hmem => (List.nodup_append.mp hlayers).2.2 _ hmem _ (List.mem_cons_self ..) rfl

end Guards

/-! ## The checks of every run -/

/-- The checks that a run with these inputs makes of its own work all go well. -/
structure GuardsHold (inputs : Inputs) (x : Executor) : Prop where
  /-- Nothing that has been reported is missing in the end. -/
  found : ∀ typeName key, x.execute.2.1 ≠ .error (.missingAfterRegistration typeName key)
  checked : ∀ r, GetsTo inputs .check r →
    validate r.registry r.report.components = ([], .ok r.report.components.length)
  /-- The registry is open at every move, and what is in it stays there. -/
  kept : ∀ m r, GetsTo inputs m r → (m.act r).1.registry.closed = false ∧
    r.registry.entries <+: (m.act r).1.registry.entries
  /-- After all phases there is a coordinator. -/
  equipped : x.execute.2.1 ≠
    .error (.phaseFailed Phase.coreInfrastructure.text "事务协调器未注册")
  /-- A component that is about to be bound is found in the registry. -/
  bound : ∀ binder key r, GetsTo inputs (.bind binder key) r →
    ∃ item, r.registry.get key.kind (some key.name) = .ok item
  /-- If the resolver goes by the needs, then any component that has been built can be put in. -/
  inserted : inputs.resolver.resolve = Plan.resolve → ∀ web c r item,
    GetsTo inputs (.create web c) r →
      ∃ registry, r.registry.insert c.descriptor.key item = .ok registry
  /-- A second attempt gets as far as none of them. -/
  again : x.execute.2.2.execute.2.1 = .error .alreadyBootstrapped

/-- Whatever features, factories, binders and resolvers do, a start-up does not fail by a check of
    its own work. -/
theorem guards_hold_of_execute {b : Builder} {inForce : Bool} {stopwatch : Stopwatch} {x : Executor}
    (hb : b.executor inForce stopwatch = .ok x) : GuardsHold (b.inputs stopwatch) x := by
  obtain rfl := Builder.executor_eq_ok hb
  have hfails : ∀ e, (Executor.ofInputs (b.inputs stopwatch)).execute.2.1 = .error e →
      (∀ typeName key, e ≠ .missingAfterRegistration typeName key) ∧
        e ≠ .phaseFailed Phase.coreInfrastructure.text "事务协调器未注册" := by
    intro e he
    obtain ⟨r, c, -, -, hrun⟩ | ⟨done, phase, made, m, t, f, hstop, hrun⟩ :=
      execute_cases (b.inputs stopwatch)
    · rw [hrun] at he
      cases he
    · rw [hrun] at he
      obtain rfl := Except.error.inj he
      exact ⟨hstop.ne_missing, hstop.ne_unequipped⟩
  constructor
  case found => exact fun typeName key he => (hfails _ he).1 typeName key rfl
  case equipped => exact fun he => (hfails _ he).2 rfl
  case checked =>
    rintro r ⟨done, phase, made, -, hmid⟩
    exact (always_tidy.midway hmid).validate_eq
  case kept => exact fun m r h => h.registry_act
  case bound =>
    rintro binder key r ⟨done, phase, made, hnext, hmid⟩
    exact hmid.isServed hnext binder key rfl
  case inserted =>
    intro hneeds web c r item h
    refine ⟨{ r.registry with entries := r.registry.entries ++ [(c.descriptor.key, item)] }, ?_⟩
    rw [Registry.insert, h.find?_eq_none hneeds]
  case again =>
    obtain ⟨r, c, -, -, hrun⟩ | ⟨done, phase, made, m, t, f, -, hrun⟩ :=
      execute_cases (b.inputs stopwatch) <;> rw [hrun] <;> rfl

/-- A start-up that fails at the binder has found the component that it was to bind. -/
theorem guards_hold_of_execute_halfBound :
    halfBound.executor false .still = .ok (.ofInputs (halfBound.inputs .still)) ∧
      GuardsHold (halfBound.inputs .still) (.ofInputs (halfBound.inputs .still)) := by
  have hb : halfBound.executor false .still = .ok (.ofInputs (halfBound.inputs .still)) := rfl
  exact ⟨hb, guards_hold_of_execute hb⟩

end BootEngine.Startup
