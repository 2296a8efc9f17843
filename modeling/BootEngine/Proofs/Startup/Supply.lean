import BootEngine.Construction.Recipe
import BootEngine.Proofs.Registry.Lookup
import BootEngine.Proofs.Startup.Layers
import BootEngine.Proofs.Startup.Protocol

/-!
# What components are supplied with

If the resolver goes by the needs, then a component that is built can get at everything that it has
declared to need, whether it belongs to the web layer or not: the registry then has the provider
that the resolver has chosen, and has no other component that the need could mean.

Contents:
* `ChosenFor`: the component that the resolver has chosen to satisfy a need.
* `get_of_need`: the registry hands that component out.
* `Supplied`, `needs_are_supplied`: what every component gets that is built.
-/

namespace BootEngine.Startup

open Component (Key Need Instance Descriptor)

/-- Among what has been collected the resolver has chosen a component to satisfy a need of another
    one, and this is what has been built from it by now. -/
def ChosenFor (inputs : Inputs) (r : Run) (d : Descriptor) (need : Need) (item : Instance) : Prop :=
  ∃ collected place provider built, inputs.collected = .ok collected ∧
    Plan.providerOf (collected.map (·.descriptor)) d need = .ok place ∧
      collected[place]? = some provider ∧ Built inputs built r ∧ (provider, item) ∈ built

section Supply

variable {inputs : Inputs} {collected : List Registration} {web : Bool} {c : Registration} {r : Run}
  {need : Need}

/-- Where the needs can be satisfied, a need of a component admits just one of all of them, and that
    is the one that is chosen for it. -/
theorem exists_provider (hs : Plan.Satisfiable (collected.map (·.descriptor))) (hc : c ∈ collected)
    (hneed : need ∈ c.descriptor.needs) :
    ∃ place provider, Plan.providerOf (collected.map (·.descriptor)) c.descriptor need = .ok place ∧
      collected[place]? = some provider ∧ need.admits provider.descriptor.key = true ∧
        ∀ q ∈ collected, need.admits q.descriptor.key = true → q = provider := by
  have hat : ∀ {place q}, collected[place]? = some q → need.admits q.descriptor.key = true →
      Plan.Provides (collected.map (·.descriptor)) need place := by
    intro place q hq hadmits
    exact ⟨q.descriptor, by rw [List.getElem?_map, hq, Option.map_some], hadmits⟩
  obtain ⟨place, ⟨d, hd, hadmits⟩, hunique⟩ := hs.provided _ (List.mem_map_of_mem hc) need hneed
  rw [List.getElem?_map, Option.map_eq_some_iff] at hd
  obtain ⟨provider, hprovider, rfl⟩ := hd
  refine ⟨place, provider, ?_, hprovider, hadmits, ?_⟩
  · exact (Plan.providerOf_eq_ok_iff hs.distinct).mpr ⟨hat hprovider hadmits, hunique⟩
  · intro q hq hq'
    obtain ⟨k, hk⟩ := List.mem_iff_getElem?.mp hq
    have hplace := hunique k (hat hk hq')
    rw [hplace, hprovider] at hk
    exact (Option.some.inj hk).symm

/-- A component that is built finds the provider of each of its needs, and nothing else. -/
theorem get_of_need (hneeds : inputs.resolver.resolve = Plan.resolve)
    (h : GetsTo inputs (.create web c) r) (hneed : need ∈ c.descriptor.needs) :
    ∃ item, ChosenFor inputs r c.descriptor need item ∧
      r.registry.get need.kind need.name = .ok item := by
  obtain ⟨done, phase, made, -, hmid⟩ := id h
  obtain ⟨built, hbuilt⟩ := always_built.midway hmid
  obtain ⟨after, hsplit⟩ := hbuilt.split h
  have hc : c ∈ inputs.layers := hsplit ▸ List.mem_append_right _ (List.mem_cons_self ..)
  obtain ⟨collected, hcollected, harranged⟩ := Inputs.exists_of_mem_layers hc
  obtain ⟨hs, -⟩ := sound_of_arrange hneeds harranged
  have hmem : ∀ {d}, d ∈ inputs.layers ↔ d ∈ collected := (layers_perm harranged).mem_iff
  obtain ⟨place, provider, hof, hprovider, hadmits, honly⟩ := exists_provider hs (hmem.mp hc) hneed
  -- the provider stands before the component, so it is in the registry
  have hin := mem_before_of_needs hneeds harranged hsplit (List.mem_of_getElem? hprovider)
    ⟨need, hneed, hadmits⟩
  obtain ⟨⟨giver, item⟩, hp, rfl⟩ := List.mem_map.mp hin
  have hentry : (giver.descriptor.key, item) ∈ r.registry.entries :=
    hbuilt.entries ▸ List.mem_map_of_mem hp
  have htidy := always_tidy.midway hmid
  refine ⟨item, ⟨collected, place, giver, built, hcollected, hof, hprovider, hbuilt, hp⟩, ?_⟩
  refine Registry.get_of_admits htidy.isOpen htidy.distinct hentry hadmits ?_
  intro other hother hoadmits
  rw [hbuilt.keys] at hother
  obtain ⟨q, hq, rfl⟩ := List.mem_map.mp hother
  rw [honly q (hmem.mp (hbuilt.isFront.subset hq)) hoadmits]

/-! ## Calls of factories -/

/-- Whenever a factory has been called, the run has come to build its component. -/
theorem always_getsTo (inputs : Inputs) (key : Key) :
    Always inputs fun r => .create key ∈ callsOf r.trace →
      ∃ web c s, GetsTo inputs (.create web c) s ∧ c.descriptor.key = key := by
  refine .of_moves (fun h => nomatch h) ?_ ?_ ?_
  · intro phase r hp hcall
    rw [callsOf_enter, List.mem_append] at hcall
    exact hp (hcall.resolve_right (by simp))
  · intro phase r hp hcall
    rw [callsOf_leave, List.mem_append] at hcall
    exact hp (hcall.resolve_right (by simp))
  · intro m r hm hp hcall
    obtain ⟨done, phase, made, hnext, hmid⟩ := id hm
    rw [Move.callsOf_act (hmid.isServed hnext), List.mem_append] at hcall
    rcases hcall with hcall | hcall
    · exact hp hcall
    · cases m with
      | create web c =>
        cases List.mem_singleton.mp hcall
        exact ⟨web, c, r, hm, rfl⟩
      | _ => simp [Move.calls] at hcall

end Supply

/-! ## What every component gets -/

/-- What a component can get at while it is built in some state of a run. -/
structure Supplied (inputs : Inputs) (c : Registration) (r : Run) : Prop where
  /-- What it has declared by name is the component that the resolver has chosen for it. -/
  named : ∀ need ∈ c.descriptor.needs, ∀ name, need.name = some name →
    ∃ item, ChosenFor inputs r c.descriptor need item ∧
      Answers ((r.view c).resolve need.kind name) need.text item
  /-- For a kind it gets what has been chosen for the first that it has declared of that kind. -/
  ofKind : ∀ need ∈ c.descriptor.needs, ∃ first item,
    c.descriptor.needs.find? (·.kind == need.kind) = some first ∧
      ChosenFor inputs r c.descriptor first item ∧
        Answers ((r.view c).resolveAny need.kind) first.text item
  /-- The data source and its coordinator are there. -/
  infrastructure : ∃ source, inputs.source = some source ∧
    (r.view c).dataSource = .ok source.name ∧
      (r.view c).coordinator = .ok ⟨source.name, inputs.settings.acquireLimit⟩

theorem GetsTo.equipped {inputs : Inputs} {web : Bool} {c : Registration} {r : Run}
    (h : GetsTo inputs (.create web c) r) : Equipped inputs r := by
  obtain ⟨done, phase, made, hnext, hmid⟩ := h
  refine hmid.equipped ((Phase.mem_front_iff hmid.isFront).mpr ?_)
  have hphase : Phase.ofLayer web = phase := Agenda.phase_of_next hnext
  rw [← hphase]
  cases web <;> decide

/-- If the resolver goes by the needs, then every component whose factory is called gets what it has
    declared: by name, and by kind; a request for a type can only go wrong because the component is
    of another type. It gets the data source and the coordinator as well. -/
theorem needs_are_supplied {b : Builder} {inForce : Bool} {stopwatch : Stopwatch} {x : Executor}
    (hb : b.executor inForce stopwatch = .ok x) (hneeds : b.resolver.resolve = Plan.resolve) :
    (∀ key, .create key ∈ callsOf x.execute.1 → ∃ web c r,
        GetsTo (b.inputs stopwatch) (.create web c) r ∧ c.descriptor.key = key) ∧
      ∀ web c r, GetsTo (b.inputs stopwatch) (.create web c) r →
        Supplied (b.inputs stopwatch) c r := by
  obtain rfl := Builder.executor_eq_ok hb
  refine ⟨fun key hcall => ?_, fun web c r h => ⟨?_, ?_, ?_⟩⟩
  · have hgets := always_getsTo (b.inputs stopwatch) key
    obtain ⟨r, d, hr, -, hrun⟩ | ⟨done, phase, made, m, t, e, hstop, hrun⟩ :=
      execute_cases (b.inputs stopwatch)
    · rw [hrun] at hcall
      exact hgets.stage hr hcall
    · rw [hrun, callsOf_broken (always_tidy.stops hstop).isOpen] at hcall
      exact hgets.stops hstop hcall
  · intro need hneed name hname
    obtain ⟨item, hchosen, hget⟩ := get_of_need hneeds h hneed
    exact ⟨item, hchosen, Injection.answers_resolve hneed hname hget⟩
  · intro need hneed
    obtain ⟨first, hfirst⟩ : ∃ first, c.descriptor.needs.find? (·.kind == need.kind) = some first :=
      Option.isSome_iff_exists.mp (List.find?_isSome.mpr ⟨need, hneed, beq_self_eq_true _⟩)
    have hkind : first.kind = need.kind := by simpa using List.find?_some hfirst
    obtain ⟨item, hchosen, hget⟩ := get_of_need hneeds h (List.mem_of_find?_eq_some hfirst)
    refine ⟨first, item, hfirst, hchosen, ?_⟩
    rw [← hkind] at hfirst ⊢
    exact Injection.answers_resolveAny hfirst hget
  · obtain ⟨source, hsource, hname, hsame, hlimit⟩ := h.equipped
    refine ⟨source, hsource, ?_, ?_⟩
    · simp only [Run.view, Injection.dataSource, hname]
    · simp only [Run.view, Injection.coordinator, hsame, hlimit]

/-- A shop that is described from its handler down to its table, so that everything is described
    before what it needs. -/
def topDown : Builder :=
  let built (typeName : String) (steps : List RecipeStep) : Option Factory :=
    some (Recipe.factory ⟨steps, typeName, none⟩)
  { Builder.empty with
    roots := ["shop"]
    manifests := [⟨"shop.web",
      [⟨.httpHandler, "shop::List", none, [.any .service, .named .repository "rows"],
          built "List" [.resolveAny .service "Stock", .resolve .repository "rows" "Table"]⟩,
        ⟨.service, "shop::Stock", none, [.any .repository],
          built "Stock" [.resolveAny .repository "Table", .coordinator]⟩,
        ⟨.repository, "shop::Table", some "rows", [], built "Table" [.dataSource]⟩]⟩]
    source := some (.pool (.ofSize "db" 1)) }

theorem needs_are_supplied_topDown :
    topDown.executor false .still = .ok (.ofInputs (topDown.inputs .still)) ∧
      topDown.resolver.resolve = Plan.resolve ∧
      ∃ web c r, GetsTo (topDown.inputs .still) (.create web c) r ∧
        c.descriptor.key = ⟨.httpHandler, "List"⟩ ∧ Supplied (topDown.inputs .still) c r := by
  have hb : topDown.executor false .still = .ok (.ofInputs (topDown.inputs .still)) := rfl
  have hneeds : topDown.resolver.resolve = Plan.resolve := rfl
  obtain ⟨hcalled, hall⟩ := needs_are_supplied hb hneeds
  obtain ⟨web, c, r, h, hkey⟩ := hcalled ⟨.httpHandler, "List"⟩ (by decide)
  exact ⟨hb, hneeds, web, c, r, h, hkey, hall web c r h⟩

end BootEngine.Startup
