import Mathlib.Data.List.Nodup
import BootEngine.Plan.Order
import BootEngine.Proofs.Plan.Resolve

/-!
# Arranged components

A plan arranges items just if it has every place of theirs once, and the items then stand as their
places do. Components that have been arranged by a build order never stand before a component that
they need; and they still do not when the web layer is moved behind all others, because nobody
outside the web layer needs somebody inside it.

Contents:
* `takeInOrder_eq_some_iff`, `arrange?_eq_some_iff`: when items are arranged, and how.
* `Plan.TakesEachOnce`, `exists_arrange?_iff`: the plans that arrange so many items.
* `Needs`, `ProvidersFirst`: no component of a list stands before one that it needs.
* `IsBuildOrder.providersFirst`, `ProvidersFirst.layers`: arranged components, and the web layer
  behind the others.
-/

namespace BootEngine

/-! ## Arranging -/

section Arrange

variable {α : Type}

/-- Items are taken out of slots if no slot is asked for twice and each has an item. -/
theorem takeInOrder_eq_some_iff {slots : List (Option α)} {places : List Nat} {items : List α} :
    takeInOrder slots places = some items ↔
      places.Nodup ∧ places.map (slots[·]?) = items.map fun a => some (some a) := by
  induction places generalizing slots items with
  | nil =>
    rw [takeInOrder, Option.some.injEq, List.map_nil, eq_comm (a := []), eq_comm (a := []),
      List.map_eq_nil_iff]
    exact ⟨fun h => ⟨List.nodup_nil, h⟩, And.right⟩
  | cons place rest ih =>
    -- a slot that has been emptied is no slot that the rest can be taken from
    have hset : ∀ item : α, ∀ others : List α,
        (rest.Nodup ∧ rest.map ((slots.set place none)[·]?) = others.map fun a => some (some a)) ∧
            slots[place]? = some (some item) ↔
          (place ∉ rest ∧ rest.Nodup ∧ rest.map (slots[·]?) = others.map fun a => some (some a)) ∧
            slots[place]? = some (some item) := by
      intro item others
      refine and_congr_left fun hslot => ?_
      have hlt := (List.getElem?_eq_some_iff.mp hslot).1
      have hother : ∀ q ∈ rest, q ≠ place → (slots.set place none)[q]? = slots[q]? :=
        fun q _ hq => List.getElem?_set_ne (Ne.symm hq)
      constructor
      · rintro ⟨hnodup, hmap⟩
        have hnotin : place ∉ rest := by
          intro hin
          have hmem := List.mem_map_of_mem (f := fun q => (slots.set place none)[q]?) hin
          rw [hmap, List.mem_map] at hmem
          obtain ⟨a, -, ha⟩ := hmem
          simp only [List.getElem?_set_self hlt, Option.some.injEq, reduceCtorEq] at ha
        refine ⟨hnotin, hnodup, hmap ▸ List.map_congr_left fun q hq => ?_⟩
        exact (hother q hq fun he => hnotin (he ▸ hq)).symm
      · rintro ⟨hnotin, hnodup, hmap⟩
        refine ⟨hnodup, hmap ▸ List.map_congr_left fun q hq => ?_⟩
        exact hother q hq fun he => hnotin (he ▸ hq)
    rw [takeInOrder, List.nodup_cons, List.map_cons]
    split
    · next item hslot =>
      rw [Option.map_eq_some_iff]
      constructor
      · rintro ⟨others, hothers, rfl⟩
        obtain ⟨⟨hnotin, hnodup, hmap⟩, -⟩ := (hset item others).mp ⟨ih.mp hothers, hslot⟩
        exact ⟨⟨hnotin, hnodup⟩, by rw [hslot, hmap, List.map_cons]⟩
      · rintro ⟨⟨hnotin, hnodup⟩, hmap⟩
        cases items with
        | nil => cases hmap
        | cons first others =>
          rw [List.map_cons, List.cons.injEq, hslot, Option.some.injEq, Option.some.injEq] at hmap
          obtain ⟨rfl, hmap⟩ := hmap
          exact ⟨others, ih.mpr ((hset item others).mpr ⟨⟨hnotin, hnodup, hmap⟩, hslot⟩).1, rfl⟩
    · next hslot =>
      refine ⟨fun h => (nomatch h), fun ⟨_, hmap⟩ => ?_⟩
      cases items with
      | nil => cases hmap
      | cons first others =>
        rw [List.map_cons, List.cons.injEq] at hmap
        exact absurd hmap.1 (hslot first)

/-- A plan arranges items if it has every place of theirs once; each item then stands where the plan
    has its place. -/
theorem arrange?_eq_some_iff {plan : Plan} {items ordered : List α} :
    plan.arrange? items = some ordered ↔
      plan.order.Perm (List.range items.length) ∧
        plan.order.map (items[·]?) = ordered.map some := by
  have hslots : plan.order.map ((items.map some)[·]?) = ordered.map (fun a => some (some a)) ↔
      plan.order.map (items[·]?) = ordered.map some := by
    have hinj : Function.Injective (Option.map (some : α → Option α)) :=
      Option.map_injective (Option.some_injective α)
    rw [← (List.map_injective_iff.mpr hinj).eq_iff, List.map_map, List.map_map]
    simp only [List.getElem?_map]
    rfl
  rw [Plan.arrange?]
  split
  · next hlen =>
    rw [takeInOrder_eq_some_iff, hslots]
    refine and_congr_left fun hmap => ⟨fun hnodup => ?_, fun hperm => ?_⟩
    · have hsub : plan.order ⊆ List.range items.length := by
        intro place hplace
        have hmem := List.mem_map_of_mem (f := fun q => items[q]?) hplace
        rw [hmap, List.mem_map] at hmem
        obtain ⟨a, -, ha⟩ := hmem
        exact List.mem_range.mpr (List.getElem?_eq_some_iff.mp ha.symm).1
      refine (hnodup.subperm hsub).perm_of_length_le ?_
      rw [List.length_range, hlen]
    · exact hperm.nodup_iff.mpr List.nodup_range
  · next hlen =>
    refine ⟨fun h => (nomatch h), fun ⟨hperm, _⟩ => absurd ?_ hlen⟩
    rw [hperm.length_eq, List.length_range]

/-- Arranging loses nothing and doubles nothing. -/
theorem perm_of_arrange? {plan : Plan} {items ordered : List α}
    (h : plan.arrange? items = some ordered) : ordered.Perm items := by
  obtain ⟨hperm, hmap⟩ := arrange?_eq_some_iff.mp h
  have hitems : (List.range items.length).map (items[·]?) = items.map some := by
    apply List.ext_getElem?
    intro k
    rw [List.getElem?_map, List.getElem?_map]
    by_cases hk : k < items.length
    · rw [List.getElem?_range hk, Option.map_some, List.getElem?_eq_getElem hk, Option.map_some]
    · rw [List.getElem?_eq_none (by rw [List.length_range]; omega),
        List.getElem?_eq_none (by omega)]
      rfl
  have hsome := hperm.map (items[·]?)
  rw [hmap, hitems] at hsome
  exact (List.map_perm_map_iff (Option.some_injective α)).mp hsome

/-- The item at each place of the order goes where the order has that place. -/
theorem getElem?_of_arrange? {plan : Plan} {items ordered : List α}
    (h : plan.arrange? items = some ordered) {k place : Nat} (hk : plan.order[k]? = some place) :
    ordered[k]? = items[place]? := by
  have hat := congrArg (·[k]?) (arrange?_eq_some_iff.mp h).2
  simp only [List.getElem?_map, hk, Option.map_some] at hat
  obtain ⟨item, hitem, hsame⟩ := Option.map_eq_some_iff.mp hat.symm
  rw [hitem, hsame]

/-! ## Plans that take each item once -/

/-- A plan takes each of so many items once, and nothing else. -/
def Plan.TakesEachOnce (plan : Plan) (count : Nat) : Prop :=
  ∀ place, plan.order.count place = if place < count then 1 else 0

theorem Plan.takesEachOnce_iff_perm {plan : Plan} {count : Nat} :
    plan.TakesEachOnce count ↔ plan.order.Perm (List.range count) := by
  rw [List.perm_iff_count]
  refine forall_congr' fun place => ?_
  rw [List.nodup_range.count]
  simp only [List.mem_range]

instance (plan : Plan) (count : Nat) : Decidable (plan.TakesEachOnce count) :=
  decidable_of_iff _ Plan.takesEachOnce_iff_perm.symm

/-- Where every place has an item, the items can be taken in the order of the places. -/
theorem exists_map_getElem? {items : List α} {places : List Nat}
    (h : ∀ place ∈ places, place < items.length) :
    ∃ ordered : List α, places.map (items[·]?) = ordered.map some := by
  induction places with
  | nil => exact ⟨[], rfl⟩
  | cons place rest ih =>
    obtain ⟨hplace, hrest⟩ := List.forall_mem_cons.mp h
    obtain ⟨others, hothers⟩ := ih hrest
    refine ⟨items[place] :: others, ?_⟩
    rw [List.map_cons, List.map_cons, hothers, List.getElem?_eq_getElem hplace]

/-- Items can be arranged just if the plan takes each of them once. -/
theorem exists_arrange?_iff {plan : Plan} {items : List α} :
    (∃ ordered, plan.arrange? items = some ordered) ↔ plan.TakesEachOnce items.length := by
  rw [Plan.takesEachOnce_iff_perm]
  constructor
  · rintro ⟨ordered, hordered⟩
    exact (arrange?_eq_some_iff.mp hordered).1
  · intro hperm
    obtain ⟨ordered, hordered⟩ := exists_map_getElem? fun place hplace =>
      List.mem_range.mp (hperm.subset hplace)
    exact ⟨ordered, arrange?_eq_some_iff.mpr ⟨hperm, hordered⟩⟩

theorem arrange?_eq_none_iff {plan : Plan} {items : List α} :
    plan.arrange? items = none ↔ ¬ plan.TakesEachOnce items.length := by
  rw [← exists_arrange?_iff, Option.eq_none_iff_forall_ne_some, not_exists]

end Arrange

/-! ## Providers first -/

namespace Plan

open Component (Kind Key Need Descriptor)

/-- A component has a need that another one satisfies. -/
def Needs (d c : Descriptor) : Prop := ∃ need ∈ d.needs, need.admits c.key = true

/-- No component of a list stands before one that it needs, and none needs itself: each stands
    behind all of its providers. -/
structure ProvidersFirst (ds : List Descriptor) : Prop where
  behind : ds.Pairwise fun d c => ¬ Needs d c
  irrefl : ∀ d ∈ ds, ¬ Needs d d

theorem kind_eq_of_admits {need : Need} {key : Key} (h : need.admits key = true) :
    need.kind = key.kind := by
  rw [Need.admits, Bool.and_eq_true, beq_iff_eq] at h
  exact h.1

theorem DependsOn.of_needs {ds : List Descriptor} {place provider : Nat} {d c : Descriptor}
    (hd : ds[place]? = some d) (hc : ds[provider]? = some c) (h : Needs d c) :
    DependsOn ds place provider := by
  obtain ⟨need, hneed, hadmits⟩ := h
  exact ⟨d, hd, need, hneed, c, hc, hadmits⟩

/-- What has a plan can be satisfied, and the plan is an order to build in. -/
theorem sound_of_resolve {ds : List Descriptor} {plan : Plan} (h : resolve ds = .ok plan) :
    Satisfiable ds ∧ IsBuildOrder ds plan.order := by
  obtain ⟨graph, hgraph, hle, rfl⟩ := resolve_eq_ok_iff.mp h
  exact ⟨satisfiable_of_allProviders hgraph,
    isBuildOrder_finish (isGraph_of_allProviders hgraph) hle⟩

/-- Components that stand as in a build order stand behind their providers. -/
theorem IsBuildOrder.providersFirst {ds placed : List Descriptor} {order : List Nat}
    (h : IsBuildOrder ds order) (hplaced : order.map (ds[·]?) = placed.map some) :
    ProvidersFirst placed := by
  have hlen : order.length = placed.length := by
    simpa only [List.length_map] using congrArg List.length hplaced
  have hat : ∀ k (ho : k < order.length) (hk : k < placed.length),
      ds[order[k]]? = some placed[k] := by
    intro k ho hk
    have hk' := congrArg (fun l => l[k]?) hplaced
    simp only [List.getElem?_map, List.getElem?_eq_getElem hk, List.getElem?_eq_getElem ho,
      Option.map_some] at hk'
    exact Option.some.inj hk'
  have hnodup : order.Nodup := h.complete.nodup_iff.mpr List.nodup_range
  constructor
  · rw [List.pairwise_iff_getElem]
    intro i j hi hj hij hneeds
    have hfront := h.provided _ _ (.of_needs (hat i (hlen ▸ hi) hi) (hat j (hlen ▸ hj) hj) hneeds)
    rw [hnodup.idxOf_getElem, hnodup.idxOf_getElem] at hfront
    omega
  · intro d hd hself
    obtain ⟨k, hk, rfl⟩ := List.mem_iff_getElem.mp hd
    exact h.isAcyclic _ (.single (.of_needs (hat k (hlen ▸ hk) hk) (hat k (hlen ▸ hk) hk) hself))

/-- The web layer may be moved behind all other components, since none of those needs it. -/
theorem ProvidersFirst.layers {ds : List Descriptor} (h : ProvidersFirst ds)
    (hdirection : ∀ d ∈ ds, ∀ need ∈ d.needs, need.kind.isWeb = true → d.kind.isWeb = true) :
    ProvidersFirst (ds.filter (fun d => !d.kind.isWeb) ++ ds.filter fun d => d.kind.isWeb) := by
  constructor
  · refine List.pairwise_append.mpr ⟨h.behind.filter _, h.behind.filter _, ?_⟩
    rintro d hd c hc ⟨need, hneed, hadmits⟩
    rw [List.mem_filter] at hd hc
    have hweb := hdirection d hd.1 need hneed (kind_eq_of_admits hadmits ▸ hc.2)
    rw [hweb] at hd
    cases hd.2
  · intro d hd
    rw [List.mem_append, List.mem_filter, List.mem_filter] at hd
    exact h.irrefl d (hd.elim And.left And.left)

/-- What a component needs stands in front of it. -/
theorem ProvidersFirst.mem_before {before after : List Descriptor} {d c : Descriptor}
    (h : ProvidersFirst (before ++ d :: after)) (hc : c ∈ before ++ d :: after)
    (hneeds : Needs d c) : c ∈ before := by
  rcases List.mem_append.mp hc with hc | hc
  · exact hc
  · rcases List.mem_cons.mp hc with rfl | hc
    · exact absurd hneeds (h.irrefl c (by simp))
    · have hbehind := (List.pairwise_cons.mp (List.pairwise_append.mp h.behind).2.1).1
      exact absurd hneeds (hbehind c hc)

end Plan

end BootEngine
