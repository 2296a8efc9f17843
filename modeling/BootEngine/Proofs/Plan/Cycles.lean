import Mathlib.Data.List.Chain
import BootEngine.Plan.Resolve
import BootEngine.Proofs.Plan.Sorting

/-!
# Cycles

A sorting that ends before it has every place leaves places that wait for one another: each of them
has a provider that is left too. So a walk that goes from provider to provider among them never
stops for want of one; there are not enough places for it to go on for ever, and when it comes to a
place for the second time it has gone round a cycle.

Contents:
* `Sorting.isLeft_finish_iff`, `Sorting.exists_left_provider`: the places that are left.
* `IsTrail`, `IsLoop`: a walk that has not come to a place twice, and a cycle.
* `walk_eq_some`: a walk ends with a cycle.
* `findCycle_finish`: what is found among the places that are left.
-/

namespace BootEngine.Plan

variable {graph : List (List Nat)}

/-! ## The places that are left -/

namespace Sorting

/-- What is left by a sorting does not stand in its order. -/
theorem isLeft_finish_iff (hg : IsSimple graph) {place : Nat} :
    (finish graph).isLeft place = true ↔
      place < graph.length ∧ place ∉ (finish graph).order := by
  have hs := Sound.finish hg
  rw [isLeft, decide_eq_true_eq]
  by_cases hlt : place < graph.length
  · have hopen : openProviders graph (finish graph).order place = 0 ↔
        place ∈ (finish graph).order := by
      rw [openProviders_eq_zero_iff]
      constructor
      · intro hall
        by_contra hnotin
        obtain ⟨provider, hprovider, hout⟩ := exists_open_provider hg hlt hnotin
        exact hout (hall provider hprovider)
      · intro hin provider hprovider
        have hfront := hs.behind place hin provider hprovider
        have hplace := List.idxOf_lt_length_of_mem hin
        exact List.idxOf_lt_length_iff.mp (by omega)
    rw [hs.pending place hlt, Option.getD_some, gt_iff_lt, Nat.pos_iff_ne_zero]
    simp [hopen, hlt]
  · rw [List.getElem?_eq_none (by rw [hs.length]; omega)]
    simp [hlt]

/-- What is left waits for something that is left. -/
theorem exists_left_provider (hg : IsSimple graph) {place : Nat}
    (h : (finish graph).isLeft place = true) :
    ∃ provider ∈ providersAt graph place, (finish graph).isLeft provider = true := by
  obtain ⟨hlt, hnotin⟩ := (isLeft_finish_iff hg).mp h
  obtain ⟨provider, hprovider, hout⟩ := exists_open_provider hg hlt hnotin
  exact ⟨provider, hprovider, (isLeft_finish_iff hg).mpr ⟨hg.inside place provider hprovider, hout⟩⟩

/-- Something is left if the order is too short. -/
theorem exists_left (hg : IsSimple graph) (h : (finish graph).order.length < graph.length) :
    ∃ start others, (finish graph).left = start :: others := by
  refine List.exists_cons_of_ne_nil fun hnil => ?_
  have hall : List.range graph.length ⊆ (finish graph).order := by
    intro place hplace
    by_contra hnotin
    have hlt := List.mem_range.mp hplace
    have hleft := (isLeft_finish_iff hg).mpr ⟨hlt, hnotin⟩
    refine absurd hleft (List.filter_eq_nil_iff.mp hnil place (List.mem_range.mpr ?_))
    rwa [(Sound.finish hg).length]
  have hle := (List.nodup_range.subperm hall).length_le
  rw [List.length_range] at hle
  omega

end Sorting

/-! ## Walks -/

/-- A walk from provider to provider that has not come to any place twice, and is at `current`. -/
structure IsTrail (graph : List (List Nat)) (left : Nat → Bool) (path : List Nat)
    (current : Nat) : Prop where
  last : path.getLast? = some current
  nodup : path.Nodup
  left : ∀ place ∈ path, left place = true
  linked : path.IsChain fun place provider => provider ∈ providersAt graph place

/-- A cycle from `first` through `rest` back to `first` that comes to no other place twice. -/
structure IsLoop (graph : List (List Nat)) (left : Nat → Bool) (first : Nat)
    (rest : List Nat) : Prop where
  nodup : (first :: rest).Nodup
  left : ∀ place ∈ first :: rest, left place = true
  linked : (first :: rest ++ [first]).IsChain fun place provider =>
    provider ∈ providersAt graph place

section Walk

variable {left : Nat → Bool} {path : List Nat} {current provider : Nat}

theorem IsTrail.singleton (h : left current = true) : IsTrail graph left [current] current :=
  ⟨rfl, List.nodup_singleton _, fun place hp => by rwa [List.mem_singleton.mp hp],
    List.isChain_singleton _⟩

/-- A trail goes on to a place that it has not come to. -/
theorem IsTrail.step (h : IsTrail graph left path current)
    (hp : provider ∈ providersAt graph current) (hl : left provider = true)
    (hnew : provider ∉ path) : IsTrail graph left (path ++ [provider]) provider := by
  refine ⟨by simp, ?_, ?_, ?_⟩
  · rw [List.nodup_append]
    refine ⟨h.nodup, List.nodup_singleton _, ?_⟩
    rintro place hplace _ hself rfl
    exact hnew (List.mem_singleton.mp hself ▸ hplace)
  · intro place hplace
    rcases List.mem_append.mp hplace with hplace | hself
    · exact h.left place hplace
    · rwa [List.mem_singleton.mp hself]
  · rw [List.isChain_append, h.last]
    refine ⟨h.linked, List.isChain_singleton _, ?_⟩
    simpa using hp

/-- A trail that comes to a place again has gone round a cycle since its first visit. -/
theorem IsTrail.isLoop (h : IsTrail graph left path current)
    (hp : provider ∈ providersAt graph current) {visit : Nat}
    (hv : path.idxOf? provider = some visit) :
    ∃ rest, path.drop visit = provider :: rest ∧ IsLoop graph left provider rest := by
  rw [List.idxOf?, List.findIdx?_eq_some_iff_getElem] at hv
  obtain ⟨hlt, heq, -⟩ := hv
  obtain ⟨rest, hdrop⟩ : ∃ rest, path.drop visit = provider :: rest :=
    ⟨path.drop (visit + 1), by rw [List.drop_eq_getElem_cons hlt, beq_iff_eq.mp heq]⟩
  have hsuffix : provider :: rest <:+ path := hdrop ▸ List.drop_suffix visit path
  have hlast : (provider :: rest).getLast? = some current := by
    obtain ⟨front, rfl⟩ := hsuffix
    simpa [List.getLast?_cons] using h.last
  refine ⟨rest, hdrop, h.nodup.sublist hsuffix.sublist,
    fun place hplace => h.left place (hsuffix.subset hplace), ?_⟩
  rw [List.isChain_append, hlast]
  refine ⟨h.linked.suffix hsuffix, List.isChain_singleton _, ?_⟩
  simpa using hp

/-- A walk among places of which each has a provider among them ends with a cycle, if it may take
    as many steps as there are places. -/
theorem walk_eq_some
    (hleft : ∀ place, left place = true →
      place < graph.length ∧ ∃ provider ∈ providersAt graph place, left provider = true)
    {fuel : Nat} (h : IsTrail graph left path current)
    (hfuel : graph.length < path.length + fuel) :
    ∃ first rest, walk graph left fuel path current = some (first :: rest ++ [first]) ∧
      IsLoop graph left first rest := by
  induction fuel generalizing path current with
  | zero =>
    -- the path would have more places than there are
    have hinside : path ⊆ List.range graph.length := fun place hplace =>
      List.mem_range.mpr (hleft place (h.left place hplace)).1
    have hle := (h.nodup.subperm hinside).length_le
    rw [List.length_range] at hle
    omega
  | succ fuel ih =>
    obtain ⟨-, next, hnext, hl⟩ := hleft current (h.left current (List.mem_of_getLast? h.last))
    rw [walk]
    cases hfind : (graph[current]?.getD []).find? left with
    | none =>
      have hno := List.find?_eq_none.mp hfind next hnext
      exact absurd hl hno
    | some provider =>
      have hp : provider ∈ providersAt graph current := List.mem_of_find?_eq_some hfind
      dsimp only
      cases hvisit : path.idxOf? provider with
      | some visit =>
        obtain ⟨rest, hdrop, hloop⟩ := h.isLoop hp hvisit
        refine ⟨provider, rest, ?_, hloop⟩
        show some (path.drop visit ++ [provider]) = _
        rw [hdrop]
      | none =>
        have hnew : provider ∉ path := List.idxOf?_eq_none_iff.mp hvisit
        apply ih (h.step hp (List.find?_some hfind) hnew)
        rw [List.length_append, List.length_singleton]
        omega

end Walk

/-- If a sorting leaves places, a cycle is found among them. -/
theorem findCycle_finish (hg : IsSimple graph)
    (h : (Sorting.finish graph).order.length < graph.length) :
    ∃ first rest, findCycle graph (Sorting.finish graph) = some (first :: rest ++ [first]) ∧
      IsLoop graph (Sorting.finish graph).isLeft first rest := by
  obtain ⟨start, others, hstart⟩ := Sorting.exists_left hg h
  have hin : start ∈ (Sorting.finish graph).left := by
    rw [hstart]
    exact List.mem_cons_self ..
  have hleft : (Sorting.finish graph).isLeft start = true := (List.mem_filter.mp hin).2
  rw [findCycle, hstart]
  refine walk_eq_some (fun place hplace => ?_) (.singleton hleft) ?_
  · exact ⟨((Sorting.isLeft_finish_iff hg).mp hplace).1, Sorting.exists_left_provider hg hplace⟩
  · rw [List.length_singleton]
    omega

end BootEngine.Plan
