import Mathlib.Data.List.Lex
import BootEngine.Proofs.Plan.Resolve

/-!
# The earliest order

Of all orders to build in, a plan is the earliest: where another order leaves it for the first time,
the plan goes on with the component that was found first. A list that is found with its providers in
front keeps its order.

The sorting takes the least place that is ready. Whatever an order to build in has next behind the
places that stand in order is ready too, so it is not less than the place that the sorting takes.

Contents:
* `IsEarliest`: an order that no other one undercuts; `IsEarliest.unique`.
* `Sorting.Sound.mem_ready`: what an order to build in may have next.
* `Sorting.Sound.run_least`, `isEarliest_finish`: the sorting finds the earliest order.
* `resolve_earliest`: a plan is the earliest order.
-/

namespace BootEngine.Plan

open Component (Kind Key Need Descriptor)

/-- An order to build in that comes before all others place by place. -/
structure IsEarliest (ds : List Descriptor) (order : List Nat) : Prop where
  builds : IsBuildOrder ds order
  least : ∀ other, IsBuildOrder ds other → order = other ∨ List.Lex (· < ·) order other

/-- There is one earliest order at most. -/
theorem IsEarliest.unique {ds : List Descriptor} {order other : List Nat}
    (h : IsEarliest ds order) (ho : IsEarliest ds other) : order = other := by
  rcases h.least other ho.builds with he | hlt
  · exact he
  rcases ho.least order h.builds with he | hgt
  · exact he.symm
  · exact absurd hgt (asymm hlt)

/-! ## The sorting -/

section Sorting

variable {ds : List Descriptor} {graph : List (List Nat)} {s : Sorting}

/-- What an order to build in has next behind the places that stand in order is ready: what it
    depends on is among those places. -/
theorem Sorting.Sound.mem_ready (hs : Sorting.Sound graph s) (hg : IsGraph ds graph) {place : Nat}
    {rest : List Nat} (ho : IsBuildOrder ds (s.order ++ place :: rest)) : place ∈ s.ready := by
  have hnodup : (s.order ++ place :: rest).Nodup := ho.complete.nodup_iff.mpr List.nodup_range
  have hnotin : place ∉ s.order := fun hin =>
    (List.nodup_append.mp hnodup).2.2 place hin place (List.mem_cons_self ..) rfl
  have hlt : place < graph.length := by
    have hin : place ∈ List.range ds.length := ho.complete.mem_iff.mp (by simp)
    rw [hg.length]
    exact List.mem_range.mp hin
  apply (hs.ready place).mpr
  refine ⟨hlt, hnotin, openProviders_eq_zero_iff.mpr ?_⟩
  intro provider hprovider
  have hfront := ho.provided place provider ((hg.mem_iff place provider).mp hprovider)
  have hself : (s.order ++ place :: rest).idxOf place = s.order.length := by
    rw [List.idxOf_append_of_notMem hnotin, List.idxOf_cons_self, Nat.add_zero]
  by_contra hout
  rw [hself, List.idxOf_append_of_notMem hout] at hfront
  omega

/-- A part at the front of a list comes before the whole of it. -/
theorem eq_or_lex_of_isPrefix {part whole : List Nat} (h : part <+: whole) :
    part = whole ∨ List.Lex (· < ·) part whole := by
  obtain ⟨rest, rfl⟩ := h
  cases rest with
  | nil => exact .inl (List.append_nil part).symm
  | cons place rest =>
    right
    simpa using List.Lex.append_left (· < ·) (List.Lex.nil (a := place) (l := rest)) part

/-- An order to build in that starts with the places that stand in order does not undercut what the
    sorting makes of them. -/
theorem Sorting.Sound.run_least (hs : Sorting.Sound graph s) (hg : IsGraph ds graph) (count : Nat)
    {other : List Nat} (ho : IsBuildOrder ds other) (hp : s.order <+: other) :
    (Sorting.run graph count s).order = other ∨
      List.Lex (· < ·) (Sorting.run graph count s).order other := by
  induction count generalizing s with
  | zero => exact eq_or_lex_of_isPrefix hp
  | succ count ih =>
    cases hr : s.ready with
    | nil =>
      rw [Sorting.run_of_ready_eq_nil hr]
      exact eq_or_lex_of_isPrefix hp
    | cons place others =>
      obtain ⟨_ | ⟨next, rest⟩, rfl⟩ := hp
      · -- the other order is at its end, but it has all places, also the one that is ready
        obtain ⟨hlt, hnotin, -⟩ := hs.of_ready hr
        rw [List.append_nil] at ho
        exact absurd (ho.complete.mem_iff.mpr (List.mem_range.mpr (hg.length ▸ hlt))) hnotin
      · have hnext := hs.mem_ready hg ho
        have hsorted := hs.sorted
        rw [hr] at hnext hsorted
        rw [Sorting.run]
        rcases List.mem_cons.mp hnext with rfl | hin
        · -- both take the same place, and go on from there
          apply ih (hs.next hg.isSimple)
          rw [Sorting.order_next hr]
          exact ⟨rest, by simp⟩
        · -- the sorting takes an earlier place, and the rest does not count any more
          have hlt : place < next := (List.pairwise_cons.mp hsorted).1 next hin
          have hgoes : (s.next graph).order <+: (Sorting.run graph count (s.next graph)).order :=
            Sorting.order_isPrefix_run count
          obtain ⟨tail, htail⟩ := hgoes
          right
          rw [← htail, Sorting.order_next hr, List.append_assoc]
          exact List.Lex.append_left (· < ·) (.rel hlt) s.order

end Sorting

/-- The sorting puts a list in its earliest order. -/
theorem isEarliest_finish {ds : List Descriptor} {graph : List (List Nat)} (hg : IsGraph ds graph)
    (hl : ds.length ≤ (Sorting.finish graph).order.length) :
    IsEarliest ds (Sorting.finish graph).order := by
  refine ⟨isBuildOrder_finish hg hl, fun other ho => ?_⟩
  exact (Sorting.Sound.start graph).run_least hg graph.length ho List.nil_prefix

/-! ## Plans -/

/-- Of all arrangements of increasing numbers their own order comes first. -/
theorem eq_or_lex_of_perm {l other : List Nat} (hl : l.Pairwise (· < ·)) (h : other.Perm l) :
    l = other ∨ List.Lex (· < ·) l other := by
  induction l generalizing other with
  | nil => exact .inl h.eq_nil.symm
  | cons first rest ih =>
    obtain ⟨hfirst, hrest⟩ := List.pairwise_cons.mp hl
    cases other with
    | nil => exact absurd h.symm.eq_nil (List.cons_ne_nil first rest)
    | cons head tail =>
      have hin : head ∈ first :: rest := h.mem_iff.mp (List.mem_cons_self ..)
      rcases List.mem_cons.mp hin with rfl | hin
      · rcases ih hrest h.cons_inv with rfl | hlt
        · exact .inl rfl
        · exact .inr (.cons hlt)
      · exact .inr (.rel (hfirst head hin))

/-- A list in which everything stands behind what it depends on is in its earliest order. -/
theorem isEarliest_range {ds : List Descriptor}
    (h : ∀ place provider, DependsOn ds place provider → provider < place) :
    IsEarliest ds (List.range ds.length) := by
  have hself : ∀ place < ds.length, (List.range ds.length).idxOf place = place := by
    intro place hlt
    have hat := List.nodup_range.idxOf_getElem place (by simpa using hlt)
    simpa using hat
  refine ⟨⟨List.Perm.refl _, fun place provider hd => ?_⟩, fun other ho => ?_⟩
  · obtain ⟨hplace, hprovider⟩ := hd.lt_length
    rw [hself place hplace, hself provider hprovider]
    exact h place provider hd
  · exact eq_or_lex_of_perm List.pairwise_lt_range ho.complete

/-- A list has a plan if and only if it can be satisfied and the plan is its earliest order: every
    place once, each behind those that it depends on, and of all such orders the least place by
    place. If the components are found behind those that they depend on, the plan leaves them as
    they are. -/
theorem resolve_earliest (ds : List Descriptor) (plan : Plan) :
    (resolve ds = .ok plan ↔ Satisfiable ds ∧ IsEarliest ds plan.order) ∧
      (resolve ds = .ok plan →
        (∀ place provider, DependsOn ds place provider → provider < place) →
          plan.order = List.range ds.length) := by
  have hfound : ∀ plan, resolve ds = .ok plan → Satisfiable ds ∧ IsEarliest ds plan.order := by
    intro plan hplan
    obtain ⟨graph, hgraph, hle, rfl⟩ := resolve_eq_ok_iff.mp hplan
    exact ⟨satisfiable_of_allProviders hgraph,
      isEarliest_finish (isGraph_of_allProviders hgraph) hle⟩
  refine ⟨⟨hfound plan, ?_⟩, ?_⟩
  · rintro ⟨hs, he⟩
    have hacyclic := he.builds.isAcyclic
    obtain ⟨graph, hgraph⟩ := exists_allProviders hs fun place hself =>
      hacyclic place (.single hself)
    have hplan : resolve ds = .ok ⟨(Sorting.finish graph).order⟩ := resolve_eq_ok_iff.mpr
      ⟨graph, hgraph, hacyclic.length_le (isGraph_of_allProviders hgraph), rfl⟩
    have hsame : (Sorting.finish graph).order = plan.order := (hfound _ hplan).2.unique he
    rw [hplan, hsame]
  · intro hplan hfront
    exact (hfound plan hplan).2.unique (isEarliest_range hfront)

/-- A report that needs the store, a clock, the store and a queue. As soon as the store stands in
    order the report can follow, and it was found before the queue. -/
def lateStore : List Descriptor :=
  [⟨.service, "Report", none, [.any .repository], .scanned "app"⟩,
   ⟨.service, "Clock", none, [], .scanned "app"⟩,
   ⟨.repository, "Store", none, [], .scanned "app"⟩,
   ⟨.service, "Queue", none, [], .scanned "app"⟩]

theorem resolve_earliest_lateStore :
    resolve lateStore = .ok ⟨[1, 2, 0, 3]⟩ ∧ IsEarliest lateStore [1, 2, 0, 3] ∧
      resolve (lateStore.drop 1) = .ok ⟨[0, 1, 2]⟩ ∧
      [0, 1, 2] = List.range (lateStore.drop 1).length := by
  have hplan : resolve lateStore = .ok ⟨[1, 2, 0, 3]⟩ := by decide
  have hrest : resolve (lateStore.drop 1) = .ok ⟨[0, 1, 2]⟩ := by decide
  refine ⟨hplan, ((resolve_earliest lateStore _).1.mp hplan).2, hrest, ?_⟩
  apply (resolve_earliest (lateStore.drop 1) _).2 hrest
  rintro place provider ⟨d, hd, need, hneed, -⟩
  have hnone : ∀ d ∈ lateStore.drop 1, d.needs = [] := by decide
  rw [hnone d (List.mem_of_getElem? hd)] at hneed
  cases hneed

end BootEngine.Plan
