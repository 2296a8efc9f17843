import BootEngine.Proofs.Plan.Arrangement
import BootEngine.Proofs.Startup.Stages

/-!
# What is built, and in which order

What has been collected is built in the order of the resolver, the web layer behind everything else.
At every move of a run the registry has what has been built until then, in that order, and each
component in it is what its factory has given back.

Contents:
* `inLayers`, `Inputs.layers`: the order in which components are built.
* `arrange?_eq_some`, `sound_of_arrange`, `mem_before_of_needs`: the order of a resolver, and that
  of the needs.
* `Midway.keys_eq`, `Stage.keys_eq`, `GetsTo.position`: what has been registered when a move is
  made, and in the end.
* `Built`, `always_built`, `Built.behind`: where registered components come from, and in which order
  they stand.
-/

namespace BootEngine.Startup

open Component (Key Instance Descriptor)
open Run (each)

/-- The web layer behind everything else. -/
def inLayers (ordered : List Registration) : List Registration :=
  ordered.filter (!isWeb ·) ++ ordered.filter isWeb

/-- What a run builds, in the order in which it does. -/
def Inputs.layers (inputs : Inputs) : List Registration := inLayers inputs.ordered

theorem inLayers_perm (ordered : List Registration) : (inLayers ordered).Perm ordered :=
  List.perm_append_comm.trans (List.filter_append_perm isWeb ordered)

/-! ## The order of a resolver -/

section Order

variable {resolver : Resolver} {collected ordered : List Registration}

theorem arrange?_eq_some : resolver.arrange? collected = some ordered ↔
    ∃ plan, resolver.resolve (collected.map (·.descriptor)) = .ok plan ∧
      plan.arrange? collected = some ordered := by
  unfold Resolver.arrange?
  cases resolver.resolve (collected.map (·.descriptor)) with
  | error e => simp [Except.toOption]
  | ok plan => simp [Except.toOption]

/-- What is built is what has been collected. -/
theorem layers_perm (h : resolver.arrange? collected = some ordered) :
    (inLayers ordered).Perm collected := by
  obtain ⟨plan, -, harranged⟩ := arrange?_eq_some.mp h
  exact (inLayers_perm ordered).trans (perm_of_arrange? harranged)

/-- If the resolver goes by the needs, then they can be satisfied where it has an order, and in the
    order in which components are built each stands behind its providers. -/
theorem sound_of_arrange (hneeds : resolver.resolve = Plan.resolve)
    (h : resolver.arrange? collected = some ordered) :
    Plan.Satisfiable (collected.map (·.descriptor)) ∧
      Plan.ProvidersFirst ((inLayers ordered).map (·.descriptor)) := by
  obtain ⟨plan, hplan, harranged⟩ := arrange?_eq_some.mp h
  rw [hneeds] at hplan
  obtain ⟨hs, horder⟩ := Plan.sound_of_resolve hplan
  have hplaced : plan.order.map ((collected.map (·.descriptor))[·]?) =
      (ordered.map (·.descriptor)).map some := by
    have hmap := congrArg (List.map (Option.map (·.descriptor)))
      (arrange?_eq_some_iff.mp harranged).2
    rw [List.map_map, List.map_map] at hmap
    simp only [List.getElem?_map, List.map_map]
    exact hmap
  have hfirst := (horder.providersFirst hplaced).layers fun d hd => hs.direction d <|
    ((perm_of_arrange? harranged).map (·.descriptor)).mem_iff.mp hd
  refine ⟨hs, ?_⟩
  rw [List.filter_map, List.filter_map] at hfirst
  rw [inLayers, List.map_append]
  exact hfirst

/-- Where the needs can be satisfied, no two components have the same key. -/
theorem eq_of_key_eq (hs : Plan.Satisfiable (collected.map (·.descriptor))) {p q : Registration}
    (hp : p ∈ collected) (hq : q ∈ collected) (h : p.descriptor.key = q.descriptor.key) :
    p = q := by
  have hdistinct := hs.distinct
  rw [List.map_map] at hdistinct
  exact List.inj_on_of_nodup_map hdistinct hp hq h

end Order

/-- If the resolver goes by the needs, then whatever a component needs is built before it. -/
theorem mem_before_of_needs {resolver : Resolver}
    {collected ordered before after : List Registration} {c d : Registration}
    (hneeds : resolver.resolve = Plan.resolve) (h : resolver.arrange? collected = some ordered)
    (hsplit : inLayers ordered = before ++ c :: after) (hd : d ∈ collected)
    (hcd : Plan.Needs c.descriptor d.descriptor) : d ∈ before := by
  obtain ⟨hs, hfirst⟩ := sound_of_arrange hneeds h
  have hmem : ∀ {e}, e ∈ inLayers ordered ↔ e ∈ collected := (layers_perm h).mem_iff
  have hlisted : d.descriptor ∈ (inLayers ordered).map (·.descriptor) :=
    List.mem_map_of_mem (hmem.mpr hd)
  rw [hsplit, List.map_append, List.map_cons] at hfirst hlisted
  obtain ⟨e, he, hsame⟩ := List.mem_map.mp (hfirst.mem_before hlisted hcd)
  have hin : e ∈ collected := hmem.mp (hsplit ▸ List.mem_append_left _ he)
  exact eq_of_key_eq hs hin hd (congrArg Descriptor.key hsame) ▸ he

/-- Something is built only if there is an order. -/
theorem Inputs.exists_of_mem_layers {inputs : Inputs} {c : Registration} (h : c ∈ inputs.layers) :
    ∃ collected, inputs.collected = .ok collected ∧
      inputs.resolver.arrange? collected = some inputs.ordered := by
  have hin := (inLayers_perm inputs.ordered).mem_iff.mp h
  unfold Inputs.ordered at hin ⊢
  cases hcollected : inputs.collected with
  | error e =>
    rw [hcollected] at hin
    cases hin
  | ok collected =>
    rw [hcollected] at hin
    refine ⟨collected, rfl, ?_⟩
    change c ∈ (inputs.resolver.arrange? collected).getD [] at hin
    change _ = some ((inputs.resolver.arrange? collected).getD [])
    cases harranged : inputs.resolver.arrange? collected with
    | none =>
      rw [harranged] at hin
      cases hin
    | some ordered => rfl

/-! ## What has been registered -/

section Registered

variable {inputs : Inputs} {done : List Phase} {phase : Phase} {made : List Move} {r : Run}

/-- All phases together build everything, the web layer at the end. -/
theorem created_all (inputs : Inputs) :
    Phase.all.flatMap inputs.agenda.created = inputs.layers := by
  simp only [Phase.all, List.flatMap_cons, List.flatMap_nil, Agenda.created, List.nil_append,
    List.append_nil]
  rfl

theorem map_key_registered (phase : Phase) : (inputs.registered phase).map (·.key) =
    (inputs.agenda.created phase).map (·.descriptor.key) := by
  rw [Inputs.registered, List.map_map]
  rfl

/-- The keys of a registry are those that are reported. -/
theorem Tidy.keys_eq {r : Run} (h : Tidy r) :
    r.registry.keys = r.report.components.map (·.key) := by
  rw [h.reported, Registry.keys, h.isOpen, if_neg Bool.false_ne_true]

/-- The registry has the keys of what has been built until now, in this order. -/
theorem Midway.keys_eq (h : Midway inputs done phase made r) :
    r.registry.entries.map Prod.fst =
      (done.flatMap inputs.agenda.created ++ made.filterMap Move.created?).map
        (·.descriptor.key) := by
  rw [← (always_tidy.midway h).reported, h.components_eq, List.map_append, List.map_append,
    List.map_flatMap, List.map_flatMap, funext map_key_registered, List.map_map]
  rfl

/-- When all phases have gone well, the registry has the keys of everything in order. -/
theorem Stage.keys_eq (h : Stage inputs Phase.all r) :
    r.registry.keys = inputs.layers.map (·.descriptor.key) := by
  rw [(always_tidy.stage h).keys_eq, h.components_eq, List.map_flatMap, funext map_key_registered,
    ← created_all, List.map_flatMap]

/-- When a component is built, the registry has everything that stands before it, and nothing
    else. -/
theorem GetsTo.position {web : Bool} {c : Registration} (h : GetsTo inputs (.create web c) r) :
    ∃ before after, inputs.layers = before ++ c :: after ∧
      r.registry.entries.map Prod.fst = before.map (·.descriptor.key) := by
  obtain ⟨done, phase, made, ⟨rest, hrest⟩, hmid⟩ := h
  obtain ⟨todo, htodo⟩ := hmid.isFront
  refine ⟨_, rest.filterMap Move.created? ++ todo.flatMap inputs.agenda.created, ?_, hmid.keys_eq⟩
  rw [← created_all, ← htodo, List.flatMap_append, List.flatMap_append, List.flatMap_singleton,
    ← Agenda.created_eq, ← hrest, List.filterMap_append, List.filterMap_append]
  simp [Move.created?]

/-! ## Where components come from -/

/-- In a run with these inputs the factory of a registration gives this back. -/
def Gave (inputs : Inputs) (c : Registration) (item : Instance) : Prop :=
  ∃ web r, GetsTo inputs (.create web c) r ∧ (c.factory (r.view c)).2 = .ok item

/-- What is in the registry in some state of a run has been built from the first of what there is to
    build, in order: each component is what the factory of its registration has given back. -/
structure Built (inputs : Inputs) (built : List (Registration × Instance)) (r : Run) : Prop where
  isFront : built.map Prod.fst <+: inputs.layers
  entries : r.registry.entries = built.map fun p => (p.1.descriptor.key, p.2)
  gave : ∀ p ∈ built, Gave inputs p.1 p.2

theorem Built.keys {built : List (Registration × Instance)} (h : Built inputs built r) :
    r.registry.entries.map Prod.fst = (built.map Prod.fst).map (·.descriptor.key) := by
  rw [h.entries, List.map_map, List.map_map]
  rfl

/-- When a component is built, what has been built until then is what stands before it. -/
theorem Built.split {built : List (Registration × Instance)} {web : Bool} {c : Registration}
    (h : Built inputs built r) (hc : GetsTo inputs (.create web c) r) :
    ∃ after, inputs.layers = built.map Prod.fst ++ c :: after := by
  obtain ⟨before, after, hsplit, hkeys⟩ := hc.position
  have hlen : (built.map Prod.fst).length = before.length := by
    simpa only [List.length_map] using congrArg List.length (h.keys.symm.trans hkeys)
  have hfront : before <+: inputs.layers := ⟨c :: after, hsplit.symm⟩
  have hsame := (List.prefix_of_prefix_length_le h.isFront hfront hlen.le).eq_of_length hlen
  exact ⟨after, hsame ▸ hsplit⟩

/-- At every move of a run the registry has been built from the first of what there is to build. -/
theorem always_built : Always inputs fun r => ∃ built, Built inputs built r := by
  refine .of_moves ⟨[], List.nil_prefix, rfl, fun _ h => nomatch h⟩
    (fun _ _ ⟨built, h⟩ => ⟨built, { h with }⟩) (fun _ _ ⟨built, h⟩ => ⟨built, { h with }⟩) ?_
  rintro m r hm ⟨built, h⟩
  obtain hsame | ⟨web, c, item, rfl, hgave, hadded⟩ := m.entries_act r
  · exact ⟨built, { h with entries := hsame.trans h.entries }⟩
  · refine ⟨built ++ [(c, item)], ?_, ?_, ?_⟩
    · obtain ⟨after, hsplit⟩ := h.split hm
      rw [hsplit, List.map_append]
      exact ⟨after, List.append_assoc ..⟩
    · rw [hadded, h.entries, List.map_append]
      rfl
    · intro p hp
      rcases List.mem_append.mp hp with hp | hp
      · exact h.gave p hp
      · rw [List.mem_singleton.mp hp]
        exact ⟨web, r, hm, hgave⟩

/-- If the resolver goes by the needs, then what has been built later is not needed by what has been
    built before. -/
theorem Built.behind {built : List (Registration × Instance)} (h : Built inputs built r)
    (hneeds : inputs.resolver.resolve = Plan.resolve) :
    built.Pairwise fun q p => ¬ Plan.Needs q.1.descriptor p.1.descriptor := by
  cases built with
  | nil => exact .nil
  | cons first rest =>
    have hin : first.1 ∈ inputs.layers := h.isFront.subset (List.mem_cons_self ..)
    obtain ⟨collected, -, harranged⟩ := Inputs.exists_of_mem_layers hin
    obtain ⟨-, hfirst⟩ := sound_of_arrange hneeds harranged
    have hbehind := (List.pairwise_map.mp hfirst.behind).sublist h.isFront.sublist
    exact List.pairwise_map.mp hbehind

end Registered

end BootEngine.Startup
