import Mathlib.Data.List.Nodup
import Mathlib.Data.List.Perm.Subperm
import BootEngine.Plan.Sorting

/-!
# What a sorting keeps

At every moment of a sorting the open providers of each place are those that do not stand in the
order yet, the places that are ready are those outside the order that have none, and in the order
each place stands behind its providers. A sorting goes on as long as a place is ready, so at its end
every place outside the order waits for another one outside the order.

Contents:
* `IsSimple`: the graphs that are sorted.
* `openProviders`: the providers of a place that an order lacks.
* `Sorting.Sound`: what is kept; `Sorting.Sound.start`, `Sorting.Sound.next`.
* `Sorting.Sound.finish`, `Sorting.ready_finish`, `Sorting.exists_open_provider`: the end of a
  sorting.
-/

namespace BootEngine.Plan

/-- The providers of a place in a graph. -/
abbrev providersAt (graph : List (List Nat)) (place : Nat) : List Nat := graph[place]?.getD []

/-- Every place lists its providers once, and all of them are places. -/
structure IsSimple (graph : List (List Nat)) : Prop where
  nodup : ∀ place, (providersAt graph place).Nodup
  inside : ∀ place, ∀ provider ∈ providersAt graph place, provider < graph.length

/-- The number of providers of a place that do not stand in an order. -/
def openProviders (graph : List (List Nat)) (order : List Nat) (place : Nat) : Nat :=
  (providersAt graph place).countP fun provider => provider ∉ order

theorem openProviders_eq_zero_iff {graph : List (List Nat)} {order : List Nat} {place : Nat} :
    openProviders graph order place = 0 ↔ ∀ p ∈ providersAt graph place, p ∈ order := by
  rw [openProviders, List.countP_eq_zero]
  refine forall₂_congr fun p _ => ?_
  rw [decide_eq_true_eq, not_not]

/-- A place that joins the order is no longer open for those that it provides for. -/
theorem openProviders_append {graph : List (List Nat)} (hg : IsSimple graph) {order : List Nat}
    {first : Nat} (hf : first ∉ order) (place : Nat) :
    openProviders graph order place = openProviders graph (order ++ [first]) place +
      if first ∈ providersAt graph place then 1 else 0 := by
  have hcount : ∀ l : List Nat, l.Nodup →
      l.countP (fun p => p ∉ order) = l.countP (fun p => p ∉ order ++ [first]) +
        if first ∈ l then 1 else 0 := by
    intro l
    induction l with
    | nil => exact fun _ => rfl
    | cons p rest ih =>
      intro hnodup
      obtain ⟨hnotin, hrest⟩ := List.nodup_cons.mp hnodup
      rw [List.countP_cons, List.countP_cons, ih hrest]
      by_cases hp : p = first
      · subst hp
        simp [hf, hnotin]
      · have hmem : p ∉ order ++ [first] ↔ p ∉ order := by simp [hp]
        simp only [hmem, List.mem_cons, Ne.symm hp, false_or]
        omega
  exact hcount _ (hg.nodup place)

theorem mem_dependants {graph : List (List Nat)} {place provider : Nat} :
    place ∈ dependants graph provider ↔ provider ∈ providersAt graph place := by
  rw [dependants, List.mem_filter, List.mem_range, List.contains_iff_mem]
  refine ⟨And.right, fun h => ⟨?_, h⟩⟩
  by_contra hge
  rw [providersAt, List.getElem?_eq_none (Nat.not_lt.mp hge)] at h
  cases h

theorem dependants_nodup (graph : List (List Nat)) (provider : Nat) :
    (dependants graph provider).Nodup := List.nodup_range.filter _

theorem mem_insertPlace {p q : Nat} {places : List Nat} :
    p ∈ insertPlace q places ↔ p = q ∨ p ∈ places := by
  induction places with
  | nil => simp [insertPlace]
  | cons first rest ih =>
    rw [insertPlace]
    split
    · rw [List.mem_cons]
    · split
      · next he =>
        subst he
        rw [List.mem_cons, ← or_assoc, or_self]
      · rw [List.mem_cons, ih, List.mem_cons, or_left_comm]

theorem insertPlace_sorted {q : Nat} {places : List Nat} (h : places.Pairwise (· < ·)) :
    (insertPlace q places).Pairwise (· < ·) := by
  induction places with
  | nil => exact List.pairwise_singleton _ _
  | cons first rest ih =>
    obtain ⟨hfirst, hrest⟩ := List.pairwise_cons.mp h
    rw [insertPlace]
    split
    · next hlt =>
      refine List.pairwise_cons.mpr ⟨fun p hp => ?_, h⟩
      rcases List.mem_cons.mp hp with rfl | hp
      · exact hlt
      · exact Nat.lt_trans hlt (hfirst p hp)
    · next hlt =>
      split
      · exact h
      · next hne =>
        refine List.pairwise_cons.mpr ⟨fun p hp => ?_, ih hrest⟩
        rcases mem_insertPlace.mp hp with rfl | hp
        · omega
        · exact hfirst p hp

namespace Sorting

/-! ## Satisfying dependants -/

section Satisfy

variable {s : Sorting} {q : Nat}

@[simp] theorem order_satisfy : (s.satisfy q).order = s.order := by
  unfold satisfy
  dsimp only
  split <;> rfl

@[simp] theorem pending_satisfy : (s.satisfy q).pending = s.pending.modify q (· - 1) := by
  unfold satisfy
  dsimp only
  split <;> rfl

theorem mem_ready_satisfy {p : Nat} {k : Nat} (hq : s.pending[q]? = some (k + 1)) :
    p ∈ (s.satisfy q).ready ↔ p ∈ s.ready ∨ p = q ∧ k = 0 := by
  have hk : (s.pending.modify q (· - 1))[q]? = some 0 ↔ k = 0 := by
    simp [hq]
  unfold satisfy
  dsimp only
  split
  · next h =>
    rw [mem_insertPlace, or_comm, and_iff_left (hk.mp h)]
  · next h => exact (or_iff_left fun hp => h (hk.mpr hp.2)).symm

theorem ready_satisfy_sorted (hs : s.ready.Pairwise (· < ·)) :
    (s.satisfy q).ready.Pairwise (· < ·) := by
  unfold satisfy
  dsimp only
  split
  · exact insertPlace_sorted hs
  · exact hs

/-- Several places, each with an open provider, have one provider less. -/
theorem foldl_satisfy {qs : List Nat} (hqs : qs.Nodup)
    (hopen : ∀ q ∈ qs, ∃ k, s.pending[q]? = some (k + 1)) :
    (qs.foldl satisfy s).order = s.order ∧
      (qs.foldl satisfy s).pending.length = s.pending.length ∧
      (∀ p, (qs.foldl satisfy s).pending[p]? =
        if p ∈ qs then (s.pending[p]?).map (· - 1) else s.pending[p]?) ∧
      (∀ p, p ∈ (qs.foldl satisfy s).ready ↔ p ∈ s.ready ∨ p ∈ qs ∧ s.pending[p]? = some 1) ∧
      (s.ready.Pairwise (· < ·) → (qs.foldl satisfy s).ready.Pairwise (· < ·)) := by
  induction qs generalizing s with
  | nil => simp
  | cons q rest ih =>
    obtain ⟨hnotin, hrest⟩ := List.nodup_cons.mp hqs
    obtain ⟨⟨k, hk⟩, hopen'⟩ := List.forall_mem_cons.mp hopen
    have hother : ∀ p, p ≠ q → (s.satisfy q).pending[p]? = s.pending[p]? := by
      intro p hp
      simp [Ne.symm hp]
    have hself : (s.satisfy q).pending[q]? = s.pending[q]?.map (· - 1) := by
      simp
    obtain ⟨horder, hlength, hpending, hready, hsorted⟩ := ih hrest (s := s.satisfy q) fun p hp => by
      obtain ⟨j, hj⟩ := hopen' p hp
      exact ⟨j, (hother p fun he => hnotin (he ▸ hp)).trans hj⟩
    rw [List.foldl_cons]
    refine ⟨horder.trans order_satisfy, hlength.trans ?_, fun p => ?_, fun p => ?_, fun hs =>
      hsorted (ready_satisfy_sorted hs)⟩
    · rw [pending_satisfy, List.length_modify]
    · rw [hpending p]
      by_cases hp : p = q
      · subst hp
        rw [if_neg hnotin, if_pos (List.mem_cons_self ..), hself]
      · simp only [hother p hp, List.mem_cons, hp, false_or]
    · rw [hready p, mem_ready_satisfy hk, List.mem_cons]
      by_cases hp : p = q
      · subst hp
        have hone : s.pending[p]? = some 1 ↔ k = 0 := by
          rw [hk, Option.some.injEq, Nat.succ_inj]
        rw [hone]
        simp [hnotin]
      · rw [hother p hp]
        simp [hp]

end Satisfy

/-! ## Every moment -/

/-- What holds at every moment of a sorting. -/
structure Sound (graph : List (List Nat)) (s : Sorting) : Prop where
  length : s.pending.length = graph.length
  pending : ∀ place < graph.length, s.pending[place]? = some (openProviders graph s.order place)
  ready : ∀ place, place ∈ s.ready ↔
    place < graph.length ∧ place ∉ s.order ∧ openProviders graph s.order place = 0
  sorted : s.ready.Pairwise (· < ·)
  nodup : s.order.Nodup
  inside : ∀ place ∈ s.order, place < graph.length
  behind : ∀ place ∈ s.order, ∀ provider ∈ providersAt graph place,
    s.order.idxOf provider < s.order.idxOf place

section Moments

variable {graph : List (List Nat)} {s : Sorting}

theorem Sound.start (graph : List (List Nat)) : Sound graph (Sorting.start graph) := by
  have hopen : ∀ place, openProviders graph [] place = (providersAt graph place).length := by
    intro place
    rw [openProviders, List.countP_eq_length]
    simp
  refine ⟨List.length_map _, fun place hlt => ?_, fun place => ?_, ?_, List.nodup_nil,
    fun _ h => (nomatch h), fun _ h => (nomatch h)⟩
  · show (graph.map List.length)[place]? = some (openProviders graph [] place)
    rw [hopen, List.getElem?_map, List.getElem?_eq_getElem hlt, providersAt,
      List.getElem?_eq_getElem hlt]
    rfl
  · show place ∈ (List.range graph.length).filter _ ↔ _ ∧ place ∉ [] ∧ openProviders graph [] place = 0
    rw [hopen, List.mem_filter, List.mem_range, beq_iff_eq]
    refine and_congr_right fun hlt => ?_
    rw [providersAt, List.getElem?_eq_getElem hlt]
    simp
  · exact List.pairwise_lt_range.filter _

/-- A place that is ready has not been put in order, and its providers all have. -/
theorem Sound.of_ready (hs : Sound graph s) {place : Nat} {rest : List Nat}
    (hr : s.ready = place :: rest) :
    place < graph.length ∧ place ∉ s.order ∧ ∀ p ∈ providersAt graph place, p ∈ s.order := by
  obtain ⟨hlt, hnotin, hzero⟩ := (hs.ready place).mp (hr ▸ List.mem_cons_self ..)
  exact ⟨hlt, hnotin, openProviders_eq_zero_iff.mp hzero⟩

/-- A place whose providers stand in the order goes behind them. -/
theorem behind_append {order : List Nat} {place : Nat} (hnotin : place ∉ order)
    (hplace : ∀ p ∈ providersAt graph place, p ∈ order)
    (hbehind : ∀ q ∈ order, ∀ p ∈ providersAt graph q, order.idxOf p < order.idxOf q) :
    ∀ q ∈ order ++ [place], ∀ p ∈ providersAt graph q,
      (order ++ [place]).idxOf p < (order ++ [place]).idxOf q := by
  intro q hq p hp
  rcases List.mem_append.mp hq with hq | hq
  · have hlt := hbehind q hq p hp
    have hin : p ∈ order := List.idxOf_lt_length_iff.mp
      (Nat.lt_trans hlt (List.idxOf_lt_length_iff.mpr hq))
    rwa [List.idxOf_append_of_mem hin, List.idxOf_append_of_mem hq]
  · obtain rfl := List.mem_singleton.mp hq
    have hin := hplace p hp
    rw [List.idxOf_append_of_mem hin, List.idxOf_append_of_notMem hnotin]
    exact Nat.lt_of_lt_of_le (List.idxOf_lt_length_iff.mpr hin) (Nat.le_add_right _ _)

theorem Sound.next (hg : IsSimple graph) (hs : Sound graph s) : Sound graph (s.next graph) := by
  unfold Sorting.next
  split
  · exact hs
  · next place rest hr =>
    obtain ⟨hlt, hnotin, hplace⟩ := hs.of_ready hr
    have hcount := openProviders_append hg hnotin
    have hsorted := hs.sorted
    rw [hr, List.pairwise_cons] at hsorted
    -- Each place that the new one provides for has it among its open providers.
    obtain ⟨horder, hlength, hpending, hready, hkeep⟩ := foldl_satisfy
      (s := { s with order := s.order ++ [place], ready := rest }) (dependants_nodup graph place)
      fun q hq => by
        have hin := mem_dependants.mp hq
        have hlt' : q < graph.length := by
          by_contra hge
          rw [providersAt, List.getElem?_eq_none (Nat.not_lt.mp hge)] at hin
          cases hin
        refine ⟨openProviders graph (s.order ++ [place]) q, ?_⟩
        show s.pending[q]? = _
        rw [hs.pending q hlt', hcount q, if_pos hin]
    constructor
    case length => exact hlength.trans hs.length
    case pending =>
      intro q hq
      rw [hpending q, horder]
      show (if q ∈ dependants graph place then (s.pending[q]?).map (· - 1) else s.pending[q]?) = _
      rw [hs.pending q hq, hcount q]
      by_cases hin : q ∈ dependants graph place
      · rw [if_pos hin, if_pos (mem_dependants.mp hin)]
        rfl
      · rw [if_neg hin, if_neg fun h => hin (mem_dependants.mpr h)]
        rfl
    case ready =>
      intro q
      rw [hready q, horder]
      show q ∈ rest ∨ q ∈ dependants graph place ∧ s.pending[q]? = some 1 ↔ _
      have hold : q ∈ rest ↔ q ≠ place ∧ q ∈ s.ready := by
        rw [hr, List.mem_cons]
        constructor
        · exact fun h => ⟨fun he => Nat.lt_irrefl _ (he ▸ hsorted.1 q h), .inr h⟩
        · exact fun ⟨hne, h⟩ => h.resolve_left hne
      rw [hold, hs.ready q, mem_dependants, List.mem_append, List.mem_singleton, hcount q]
      by_cases hq : q < graph.length
      · have hself : place ∉ providersAt graph place := fun h => hnotin (hplace place h)
        rw [hs.pending q hq, Option.some.injEq, hcount q]
        by_cases hin : place ∈ providersAt graph q
        · have hne : q ≠ place := fun he => hself (he ▸ hin)
          have hnot : q ∉ s.order := fun h => by
            have hlt' := hs.behind q h place hin
            exact hnotin (List.idxOf_lt_length_iff.mp
              (Nat.lt_trans hlt' (List.idxOf_lt_length_iff.mpr h)))
          simp [hin, hq, hne, hnot]
        · simp only [hin, hq, if_false, false_and, or_false, true_and, Nat.add_zero]
          tauto
      · have hnone : providersAt graph q = [] := by
          rw [providersAt, List.getElem?_eq_none (Nat.not_lt.mp hq)]
          rfl
        simp [hnone, hq]
    case sorted => exact hkeep hsorted.2
    case nodup =>
      rw [horder]
      exact List.nodup_append.mpr ⟨hs.nodup, List.nodup_singleton _, fun a ha b hb hab =>
        hnotin (List.mem_singleton.mp hb ▸ hab ▸ ha)⟩
    case inside =>
      rw [horder]
      intro q hq
      rcases List.mem_append.mp hq with hq | hq
      · exact hs.inside q hq
      · exact List.mem_singleton.mp hq ▸ hlt
    case behind =>
      rw [horder]
      exact behind_append hnotin hplace hs.behind

theorem Sound.run (hg : IsSimple graph) (hs : Sound graph s) (count : Nat) :
    Sound graph (Sorting.run graph count s) := by
  induction count generalizing s with
  | zero => exact hs
  | succ count ih => exact ih (hs.next hg)

/-! ## The end -/

/-- The first place that is ready is the next one in order. -/
theorem order_next {place : Nat} {rest : List Nat} (hr : s.ready = place :: rest) :
    (s.next graph).order = s.order ++ [place] := by
  have hfold : ∀ (qs : List Nat) (t : Sorting), (qs.foldl satisfy t).order = t.order := by
    intro qs
    induction qs with
    | nil => exact fun _ => rfl
    | cons q rest ih => exact fun t => (ih _).trans order_satisfy
  simp only [Sorting.next, hr]
  exact hfold _ _

/-- A sorting in which no place is ready does not move. -/
theorem next_of_ready_eq_nil (hr : s.ready = []) : s.next graph = s := by
  simp only [Sorting.next, hr]

/-- Every moment puts one place more in order, as long as one is ready. -/
theorem length_order_next (hr : s.ready ≠ []) :
    (s.next graph).order.length = s.order.length + 1 := by
  obtain ⟨place, rest, hcons⟩ := List.exists_cons_of_ne_nil hr
  rw [order_next hcons]
  simp

/-- What stands in order stays where it stands. -/
theorem order_isPrefix_run (count : Nat) : s.order <+: (Sorting.run graph count s).order := by
  induction count generalizing s with
  | zero => exact List.prefix_rfl
  | succ count ih =>
    cases hr : s.ready with
    | nil =>
      rw [Sorting.run, next_of_ready_eq_nil hr]
      exact ih
    | cons place rest =>
      have hlater := ih (s := s.next graph)
      rw [order_next hr] at hlater
      exact (List.prefix_append _ _).trans hlater

/-- The places in order are some of all places. -/
theorem Sound.subperm_range (hs : Sound graph s) : s.order.Subperm (List.range graph.length) :=
  hs.nodup.subperm fun p hp => List.mem_range.mpr (hs.inside p hp)

/-- An order that has as many places as there are has them all. -/
theorem Sound.perm_range (hs : Sound graph s) (hl : graph.length ≤ s.order.length) :
    s.order.Perm (List.range graph.length) := by
  refine hs.subperm_range.perm_of_length_le ?_
  rwa [List.length_range]

/-- A sorting in which no place is ready stands still. -/
theorem run_of_ready_eq_nil (hr : s.ready = []) (count : Nat) :
    Sorting.run graph count s = s := by
  induction count with
  | zero => rfl
  | succ count ih => rw [Sorting.run, next_of_ready_eq_nil hr, ih]

/-- After as many moments as there are places outside the order, no place is ready. -/
theorem Sound.ready_run (hg : IsSimple graph) (hs : Sound graph s) (count : Nat)
    (hc : graph.length ≤ s.order.length + count) : (Sorting.run graph count s).ready = [] := by
  induction count generalizing s with
  | zero =>
    refine List.eq_nil_iff_forall_not_mem.mpr fun p hp => ?_
    obtain ⟨hlt, hnotin, -⟩ := (hs.ready p).mp hp
    exact hnotin ((hs.perm_range hc).mem_iff.mpr (List.mem_range.mpr hlt))
  | succ count ih =>
    by_cases hr : s.ready = []
    · rw [run_of_ready_eq_nil hr]
      exact hr
    · refine ih (hs.next hg) ?_
      rw [length_order_next hr]
      omega

/-- The end of a sorting is one of its moments. -/
theorem Sound.finish (hg : IsSimple graph) : Sound graph (Sorting.finish graph) :=
  (Sound.start graph).run hg graph.length

/-- At the end of a sorting no place is ready. -/
theorem ready_finish (hg : IsSimple graph) : (Sorting.finish graph).ready = [] :=
  (Sound.start graph).ready_run hg graph.length (Nat.le_add_left _ _)

/-- At the end of a sorting every place outside the order waits for another one outside it. -/
theorem exists_open_provider (hg : IsSimple graph) {place : Nat} (hlt : place < graph.length)
    (hnotin : place ∉ (Sorting.finish graph).order) :
    ∃ provider ∈ providersAt graph place, provider ∉ (Sorting.finish graph).order := by
  have hopen : openProviders graph (Sorting.finish graph).order place ≠ 0 := by
    intro hzero
    have hready := ((Sound.finish hg).ready place).mpr ⟨hlt, hnotin, hzero⟩
    rw [ready_finish hg] at hready
    cases hready
  rw [Ne, openProviders_eq_zero_iff] at hopen
  push Not at hopen
  exact hopen

end Moments

end Sorting

end BootEngine.Plan
