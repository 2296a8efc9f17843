import Mathlib.Data.Fintype.EquivFin
import Mathlib.Order.WellFounded
import BootEngine.Proofs.Plan.Providers
import BootEngine.Proofs.Plan.Sorting

/-!
# Which lists can be put in order

A list of components has a plan just if its needs can be satisfied and nobody depends on itself,
directly or through others. A plan has every place once, behind the places that it depends on.

Contents:
* `IsAcyclic`, `IsBuildOrder`: the graph of a list, and what is asked of its order.
* `IsBuildOrder.isAcyclic`, `IsAcyclic.mem_order`: an order has every place just if there is no
  cycle.
* `resolve_ok_iff`: the lists that have a plan, and what the plan is.
-/

namespace BootEngine.Plan

open Component (Kind Key Need Descriptor)

/-- No component depends on itself, directly or through others. -/
def IsAcyclic (ds : List Descriptor) : Prop :=
  ∀ place, ¬ Relation.TransGen (DependsOn ds) place place

/-- Every place of a list once, each behind those that it depends on. -/
structure IsBuildOrder (ds : List Descriptor) (order : List Nat) : Prop where
  complete : order.Perm (List.range ds.length)
  provided : ∀ place provider, DependsOn ds place provider →
    order.idxOf provider < order.idxOf place

section Order

variable {ds : List Descriptor} {graph : List (List Nat)}

/-- Along the needs one goes towards the front of the order, so one never comes back. -/
theorem IsBuildOrder.isAcyclic {order : List Nat} (h : IsBuildOrder ds order) : IsAcyclic ds := by
  have hfront : ∀ p q, Relation.TransGen (DependsOn ds) p q → order.idxOf q < order.idxOf p := by
    intro p q hpq
    induction hpq with
    | single hd => exact h.provided _ _ hd
    | tail _ hd ih => exact Nat.lt_trans (h.provided _ _ hd) ih
  exact fun place hcycle => Nat.lt_irrefl _ (hfront place place hcycle)

/-- Without a cycle one can go from providers to those that need them. -/
theorem IsAcyclic.wellFounded (h : IsAcyclic ds) :
    WellFounded fun p q : Fin ds.length => Relation.TransGen (DependsOn ds) q p :=
  haveI : IsTrans (Fin ds.length) fun p q => Relation.TransGen (DependsOn ds) q p :=
    ⟨fun _ _ _ hab hbc => hbc.trans hab⟩
  haveI : Std.Irrefl fun p q : Fin ds.length => Relation.TransGen (DependsOn ds) q p :=
    ⟨fun p => h p⟩
  Finite.wellFounded_of_trans_of_irrefl _

theorem IsGraph.isSimple (hg : IsGraph ds graph) : IsSimple graph := by
  refine ⟨fun place => ?_, fun place provider hp => ?_⟩
  · rw [providersAt]
    cases hplace : graph[place]? with
    | none => exact List.nodup_nil
    | some providers => exact hg.nodup providers (List.mem_of_getElem? hplace)
  · rw [hg.length]
    exact ((hg.mem_iff place provider).mp hp).lt_length.2

/-- A place outside the order would wait for another one outside the order, and so on for ever. -/
theorem IsAcyclic.mem_order (h : IsAcyclic ds) (hg : IsGraph ds graph) {place : Nat}
    (hplace : place < ds.length) : place ∈ (Sorting.finish graph).order := by
  have hall : ∀ place : Fin ds.length, place.val ∈ (Sorting.finish graph).order := by
    intro place
    induction place using h.wellFounded.induction with
    | h place ih =>
      by_contra hnotin
      obtain ⟨p, hp, hout⟩ :=
        Sorting.exists_open_provider hg.isSimple (hg.length.symm ▸ place.2) hnotin
      have hdep := (hg.mem_iff place p).mp hp
      exact hout (ih ⟨p, hdep.lt_length.2⟩ (.single hdep))
  exact hall ⟨place, hplace⟩

/-- An order that has all places is one to build in. -/
theorem isBuildOrder_finish (hg : IsGraph ds graph)
    (hl : ds.length ≤ (Sorting.finish graph).order.length) :
    IsBuildOrder ds (Sorting.finish graph).order := by
  have hs := Sorting.Sound.finish hg.isSimple
  have hperm := hs.perm_range (hg.length ▸ hl)
  rw [hg.length] at hperm
  refine ⟨hperm, fun place provider hd => ?_⟩
  have hin := hperm.mem_iff.mpr (List.mem_range.mpr hd.lt_length.1)
  exact hs.behind place hin provider ((hg.mem_iff place provider).mpr hd)

/-- The places of a list without a cycle are all put in order. -/
theorem IsAcyclic.length_le (h : IsAcyclic ds) (hg : IsGraph ds graph) :
    ds.length ≤ (Sorting.finish graph).order.length := by
  have hsub : List.range ds.length ⊆ (Sorting.finish graph).order := fun _ hp =>
    h.mem_order hg (List.mem_range.mp hp)
  have hle := (List.nodup_range.subperm hsub).length_le
  rwa [List.length_range] at hle

end Order

/-! ## Plans -/

theorem resolve_eq_ok_iff {ds : List Descriptor} {plan : Plan} :
    resolve ds = .ok plan ↔ ∃ graph, allProviders ds = .ok graph ∧
      ds.length ≤ (Sorting.finish graph).order.length ∧ plan = ⟨(Sorting.finish graph).order⟩ := by
  unfold resolve
  cases allProviders ds with
  | error e => simp
  | ok graph =>
    dsimp only
    split
    · next hlt =>
      refine ⟨fun h => (nomatch h), fun ⟨g, hg, hle, _⟩ => ?_⟩
      rw [← Except.ok.inj hg] at hle
      exact absurd hlt (Nat.not_lt.mpr hle)
    · next hlt =>
      constructor
      · exact fun h => ⟨graph, rfl, Nat.not_lt.mp hlt, (Except.ok.inj h).symm⟩
      · rintro ⟨g, hg, -, rfl⟩
        rw [Except.ok.inj hg]

/-- A list of components has a plan if and only if its keys are distinct, nobody outside the web
    layer needs somebody inside it, every need has exactly one provider, and the needs have no
    cycle. A plan then has every place once, each behind those that it depends on. -/
theorem resolve_ok_iff (ds : List Descriptor) :
    ((∃ plan, resolve ds = .ok plan) ↔ Satisfiable ds ∧ IsAcyclic ds) ∧
      ∀ plan, resolve ds = .ok plan → IsBuildOrder ds plan.order := by
  have horder : ∀ plan, resolve ds = .ok plan → IsBuildOrder ds plan.order := by
    intro plan hplan
    obtain ⟨graph, hgraph, hle, rfl⟩ := resolve_eq_ok_iff.mp hplan
    exact isBuildOrder_finish (isGraph_of_allProviders hgraph) hle
  refine ⟨⟨?_, ?_⟩, horder⟩
  · rintro ⟨plan, hplan⟩
    obtain ⟨graph, hgraph, -, -⟩ := resolve_eq_ok_iff.mp hplan
    exact ⟨satisfiable_of_allProviders hgraph, (horder plan hplan).isAcyclic⟩
  · rintro ⟨hs, ha⟩
    obtain ⟨graph, hgraph⟩ := exists_allProviders hs fun place hself => ha place (.single hself)
    exact ⟨_, resolve_eq_ok_iff.mpr
      ⟨graph, hgraph, ha.length_le (isGraph_of_allProviders hgraph), rfl⟩⟩

/-- A handler that needs any service and, once more, that service by its name; a service that needs
    a repository; and the repository, which needs nothing. -/
def threeLayers : List Descriptor :=
  [⟨.httpHandler, "List", none, [.any .service, .named .service "Store"], .feature "web"⟩,
   ⟨.service, "Store", none, [.named .repository "rows"], .scanned "app"⟩,
   ⟨.repository, "Table", some "rows", [], .scanned "app"⟩]

theorem resolve_ok_iff_threeLayers :
    resolve threeLayers = .ok ⟨[2, 1, 0]⟩ ∧ Satisfiable threeLayers ∧ IsAcyclic threeLayers ∧
      IsBuildOrder threeLayers [2, 1, 0] := by
  have hplan : resolve threeLayers = .ok ⟨[2, 1, 0]⟩ := by decide
  obtain ⟨hs, ha⟩ := (resolve_ok_iff threeLayers).1.mp ⟨_, hplan⟩
  exact ⟨hplan, hs, ha, (resolve_ok_iff threeLayers).2 _ hplan⟩

end BootEngine.Plan
