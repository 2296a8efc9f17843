import BootEngine.Proofs.Plan.Sorting

/-!
# Counting down

The loop that puts places in order, said by single steps. It takes the first place that is ready,
puts it in order, and then counts one provider off for each place that depends on it; a place that
comes to zero becomes ready. A step that looks up a place that is not there, or counts below zero,
breaks the loop off. No step ever does, since the count of a place is at every moment the number of
its providers outside the order, and one more as long as the last one is still to be counted off.

Contents:
* `tabulate`, `tabulate_eq`: the table of the places that depend on each place.
* `Countdown`, `Countdown.turn`, `Countdown.turns`: the loop.
* `Countdown.Sound`, `Countdown.Sound.turns`: what every step keeps, and that none breaks off.
* `Countdown.exists_turns_finish`: the loop ends as a sorting does.
-/

namespace BootEngine.Plan

/-! ## The table -/

/-- Adds a place to those that depend on `provider`. -/
def note (place : Nat) (table : List (List Nat)) (provider : Nat) : Option (List (List Nat)) :=
  match table[provider]? with
  | none => none
  | some places => some (table.set provider (places ++ [place]))

/-- Goes through the lists of providers of the places from `place` on, and adds each of these places
    to those that depend on its providers. -/
def tabulateFrom : Nat → List (List Nat) → List (List Nat) → Option (List (List Nat))
  | _, [], table => some table
  | place, providers :: rest, table =>
    match providers.foldlM (note place) table with
    | none => none
    | some table => tabulateFrom (place + 1) rest table

/-- The places that depend on each place. -/
def tabulate (graph : List (List Nat)) : Option (List (List Nat)) :=
  tabulateFrom 0 graph (List.replicate graph.length [])

section Table

variable {graph : List (List Nat)}

/-- A place is added once to those that depend on each of its providers. -/
theorem foldlM_note (place : Nat) (table : List (List Nat)) {providers : List Nat}
    (hnodup : providers.Nodup) (hinside : ∀ provider ∈ providers, provider < table.length) :
    ∃ noted, providers.foldlM (note place) table = some noted ∧ noted.length = table.length ∧
      ∀ p, noted[p]? = if p ∈ providers then (table[p]?).map (· ++ [place]) else table[p]? := by
  induction providers generalizing table with
  | nil => exact ⟨table, rfl, rfl, fun p => (if_neg List.not_mem_nil).symm⟩
  | cons provider rest ih =>
    obtain ⟨hnotin, hrest⟩ := List.nodup_cons.mp hnodup
    obtain ⟨hfirst, hinside⟩ := List.forall_mem_cons.mp hinside
    have hnote : note place table provider =
        some (table.set provider (table[provider] ++ [place])) := by
      rw [note, List.getElem?_eq_getElem hfirst]
    obtain ⟨noted, hnoted, hlength, hat⟩ :=
      ih (table.set provider (table[provider] ++ [place])) hrest (by simpa using hinside)
    refine ⟨noted, ?_, by simpa using hlength, fun p => ?_⟩
    · rw [List.foldlM_cons, hnote]
      exact hnoted
    · rw [hat p]
      by_cases hp : p = provider
      · subst hp
        simp [hnotin, hfirst]
      · simp [hp, Ne.symm hp]

/-- The places before `done` that depend on a place. -/
def dependantsBelow (graph : List (List Nat)) (done provider : Nat) : List Nat :=
  (List.range done).filter fun place => (providersAt graph place).contains provider

theorem dependantsBelow_succ (done provider : Nat) :
    dependantsBelow graph (done + 1) provider = dependantsBelow graph done provider ++
      if provider ∈ providersAt graph done then [done] else [] := by
  rw [dependantsBelow, List.range_succ, List.filter_append, List.filter_singleton]
  simp only [dependantsBelow, Bool.cond_eq_ite, List.contains_iff_mem]

/-- The places that depend on each place, as a sorting sees them. -/
def dependantsTable (graph : List (List Nat)) : List (List Nat) :=
  (List.range graph.length).map (dependants graph)

theorem getElem?_dependantsTable {place : Nat} (h : place < graph.length) :
    (dependantsTable graph)[place]? = some (dependants graph place) := by
  rw [dependantsTable, List.getElem?_map, List.getElem?_range h]
  rfl

theorem tabulateFrom_eq (hg : IsSimple graph) (done : List (List Nat))
    {rest table : List (List Nat)} (hgraph : graph = done ++ rest)
    (hlength : table.length = graph.length)
    (htable : ∀ p < graph.length, table[p]? = some (dependantsBelow graph done.length p)) :
    tabulateFrom done.length rest table = some (dependantsTable graph) := by
  induction rest generalizing done table with
  | nil =>
    rw [List.append_nil] at hgraph
    rw [tabulateFrom, Option.some.injEq]
    refine List.ext_getElem? fun p => ?_
    by_cases hp : p < graph.length
    · rw [htable p hp, getElem?_dependantsTable hp, ← hgraph]
      rfl
    · have hlong : (dependantsTable graph).length = graph.length := by simp [dependantsTable]
      rw [List.getElem?_eq_none (by omega), List.getElem?_eq_none (by omega)]
  | cons providers rest ih =>
    have hat : providersAt graph done.length = providers := by
      rw [providersAt, hgraph, List.getElem?_append_right (Nat.le_refl _), Nat.sub_self]
      rfl
    obtain ⟨noted, hnoted, hsame, hnotedat⟩ := foldlM_note done.length table
      (hat ▸ hg.nodup done.length) fun provider hp => by
        rw [hlength]
        exact hg.inside done.length provider (hat.symm ▸ hp)
    rw [tabulateFrom, hnoted]
    have hnext := ih (done ++ [providers])
      (by rw [hgraph, List.append_assoc, List.singleton_append]) (hsame.trans hlength)
      fun p hp => by
        rw [hnotedat p, htable p hp, List.length_append, List.length_singleton,
          dependantsBelow_succ, hat]
        split <;> simp
    rwa [List.length_append, List.length_singleton] at hnext

/-- The table is filled without a look outside it, and holds for each place those that depend on
    it. -/
theorem tabulate_eq (hg : IsSimple graph) : tabulate graph = some (dependantsTable graph) :=
  tabulateFrom_eq hg [] rfl List.length_replicate fun p hp => by
    rw [List.getElem?_replicate_of_lt hp]
    rfl

end Table

/-! ## The loop -/

/-- The loop under way: a sorting, the places that are still to be counted down for the last place
    of its order, and all places that have become ready so far. -/
structure Countdown extends Sorting where
  todo : List Nat
  entered : List Nat
  deriving DecidableEq, Repr

namespace Countdown

/-- The loop before its first step. -/
def start (graph : List (List Nat)) : Countdown :=
  ⟨Sorting.start graph, [], (Sorting.start graph).ready⟩

/-- Counts one provider off for a place; one that comes to zero becomes ready. There has to be such
    a place, and its count must not be zero already. -/
def countOff (place : Nat) (c : Countdown) : Option Countdown :=
  match c.pending[place]? with
  | none | some 0 => none
  | some (count + 1) =>
    some { c with
      toSorting := c.satisfy place
      entered := if count = 0 then c.entered ++ [place] else c.entered }

/-- Puts a place in order, which leaves those that depend on it to be counted down. -/
def putInOrder (table : List (List Nat)) (place : Nat) (c : Countdown) : Option Countdown :=
  (table[place]?).map fun todo => { c with order := c.order ++ [place], todo }

/-- One step. A loop that is over stands still. -/
def turn (table : List (List Nat)) (c : Countdown) : Option Countdown :=
  match c.todo, c.ready with
  | place :: todo, _ => countOff place { c with todo }
  | [], place :: ready => putInOrder table place { c with ready }
  | [], [] => some c

/-- Several steps. -/
def turns (table : List (List Nat)) : Nat → Countdown → Option Countdown
  | 0, c => some c
  | count + 1, c => (c.turn table).bind (turns table count)

/-- What holds after every step. -/
structure Sound (graph : List (List Nat)) (c : Countdown) : Prop where
  length : c.pending.length = graph.length
  /-- The providers outside the order are counted, and the last one of the order until it has been
      counted off. -/
  pending : ∀ place < graph.length, c.pending[place]? =
    some (openProviders graph c.order place + if place ∈ c.todo then 1 else 0)
  todo : c.todo.Nodup
  inside : ∀ place ∈ c.todo, place < graph.length
  /-- Just the places that have come to zero have become ready. -/
  zero : ∀ place, place ∈ c.entered ↔ c.pending[place]? = some 0
  entered : c.entered.Nodup
  kept : c.entered.Perm (c.order ++ c.ready)

end Countdown

/-! ## Steps that count -/

theorem insertPlace_perm {place : Nat} {places : List Nat} (h : place ∉ places) :
    (insertPlace place places).Perm (place :: places) := by
  induction places with
  | nil => exact .refl _
  | cons first rest ih =>
    rw [List.mem_cons, not_or] at h
    rw [insertPlace]
    split
    · exact .refl _
    · rw [if_neg h.1]
      exact ((ih h.2).cons first).trans (.swap ..)

namespace Sorting

variable {s : Sorting} {place count : Nat}

theorem getElem?_pending_satisfy (h : s.pending[place]? = some (count + 1)) (q : Nat) :
    (s.satisfy place).pending[q]? = if q = place then some count else s.pending[q]? := by
  rw [pending_satisfy]
  by_cases hq : q = place
  · simp [hq, h]
  · simp [hq, Ne.symm hq]

theorem ready_satisfy (h : s.pending[place]? = some (count + 1)) :
    (s.satisfy place).ready = if count = 0 then insertPlace place s.ready else s.ready := by
  rw [satisfy]
  have hplace : (s.pending.modify place (· - 1))[place]? = some 0 ↔ count = 0 := by simp [h]
  by_cases hzero : count = 0
  · rw [if_pos (hplace.mpr hzero), if_pos hzero]
  · rw [if_neg (mt hplace.mp hzero), if_neg hzero]

end Sorting

namespace Countdown

section Steps

variable {graph table : List (List Nat)} {c : Countdown} {place : Nat} {todo ready : List Nat}

theorem turn_of_todo (htodo : c.todo = place :: todo) :
    c.turn table = countOff place { c with todo } := by
  obtain ⟨⟨order, pending, ready⟩, _, entered⟩ := c
  cases htodo
  rfl

theorem turn_of_ready (htodo : c.todo = []) (hready : c.ready = place :: ready) :
    c.turn table = putInOrder table place { c with ready } := by
  obtain ⟨⟨order, pending, _⟩, _, entered⟩ := c
  cases htodo
  cases hready
  rfl

theorem Sound.start (graph : List (List Nat)) : Sound graph (Countdown.start graph) := by
  have hs := Sorting.Sound.start graph
  refine ⟨hs.length, hs.pending, List.nodup_nil, fun _ h => (nomatch h), fun place => ?_,
    hs.sorted.imp Nat.ne_of_lt, List.Perm.refl _⟩
  show place ∈ (Sorting.start graph).ready ↔ (Sorting.start graph).pending[place]? = some 0
  rw [hs.ready place]
  by_cases hp : place < graph.length
  · rw [hs.pending place hp, Option.some.injEq]
    exact ⟨fun h => h.2.2, fun h => ⟨hp, List.not_mem_nil, h⟩⟩
  · rw [List.getElem?_eq_none (by rw [hs.length]; omega)]
    exact ⟨fun h => absurd h.1 hp, fun h => (nomatch h)⟩

/-- A place whose turn it is has a provider to count off. -/
theorem Sound.pending_of_todo (h : Sound graph c) (htodo : c.todo = place :: todo) :
    c.pending[place]? = some (openProviders graph c.order place + 1) := by
  rw [h.pending place (h.inside place (htodo ▸ List.mem_cons_self ..)), htodo,
    if_pos (List.mem_cons_self ..)]

/-- So it has not become ready yet. -/
theorem Sound.fresh_of_todo (h : Sound graph c) (htodo : c.todo = place :: todo) :
    place ∉ c.entered := by
  intro hin
  have hzero := (h.zero place).mp hin
  rw [h.pending_of_todo htodo] at hzero
  cases hzero

/-- To count a provider off keeps what holds, and does to the sorting what it does for the place. -/
theorem Sound.countOff (h : Sound graph c) (htodo : c.todo = place :: todo) :
    ∃ d, Countdown.countOff place { c with todo } = some d ∧ Sound graph d ∧ d.todo = todo ∧
      d.toSorting = c.satisfy place := by
  obtain ⟨hnotin, hnodup⟩ := List.nodup_cons.mp (htodo ▸ h.todo)
  have hplace := h.pending_of_todo htodo
  have hfresh := h.fresh_of_todo htodo
  have hpending := Sorting.getElem?_pending_satisfy (s := c.toSorting) hplace
  rw [Countdown.countOff]
  dsimp only
  rw [hplace]
  refine ⟨_, rfl, ?_, rfl, rfl⟩
  constructor
  case length =>
    show (c.satisfy place).pending.length = graph.length
    rw [Sorting.pending_satisfy, List.length_modify, h.length]
  case pending =>
    intro q hq
    dsimp only
    rw [hpending q, Sorting.order_satisfy]
    by_cases he : q = place
    · rw [if_pos he, he, if_neg hnotin, Nat.add_zero]
    · rw [if_neg he, h.pending q hq, htodo]
      simp [he]
  case todo => exact hnodup
  case inside => exact fun q hq => h.inside q (htodo ▸ List.mem_cons_of_mem _ hq)
  case zero =>
    intro q
    dsimp only
    rw [hpending q]
    by_cases he : q = place
    · rw [if_pos he, he, Option.some.injEq]
      split
      · next hzero => simp [hzero]
      · next hzero => simp [hzero, hfresh]
    · rw [if_neg he, ← h.zero q]
      split
      · simp [he]
      · rfl
  case entered =>
    dsimp only
    split
    · refine h.entered.append (List.nodup_singleton _) fun q hq hin => ?_
      exact hfresh (List.mem_singleton.mp hin ▸ hq)
    · exact h.entered
  case kept =>
    dsimp only
    rw [Sorting.ready_satisfy (s := c.toSorting) hplace, Sorting.order_satisfy]
    split
    · have hnew : place ∉ c.ready := fun hin =>
        hfresh (h.kept.mem_iff.mpr (List.mem_append_right _ hin))
      calc (c.entered ++ [place]).Perm (c.order ++ c.ready ++ [place]) := h.kept.append_right _
        _ = c.order ++ (c.ready ++ [place]) := List.append_assoc ..
        _ |>.Perm (c.order ++ insertPlace place c.ready) :=
          ((List.perm_append_singleton ..).trans (insertPlace_perm hnew).symm).append_left _
    · exact h.kept

/-- To put a place in order leaves a provider to count off for each place that depends on it. -/
theorem Sound.putInOrder (hg : IsSimple graph) (h : Sound graph c) (htodo : c.todo = [])
    (hready : c.ready = place :: ready) :
    ∃ d, Countdown.putInOrder (dependantsTable graph) place { c with ready } = some d ∧
      Sound graph d ∧ d.todo = dependants graph place ∧
        d.toSorting = ⟨c.order ++ [place], c.pending, ready⟩ := by
  have hkept : c.entered.Perm (c.order ++ place :: ready) := hready ▸ h.kept
  have hnotin : place ∉ c.order := fun hin =>
    (List.nodup_append.mp (hkept.nodup_iff.mp h.entered)).2.2 place hin place
      (List.mem_cons_self ..) rfl
  have hlt : place < graph.length := by
    have hzero := (h.zero place).mp
      (hkept.mem_iff.mpr (List.mem_append_right _ (List.mem_cons_self ..)))
    exact h.length ▸ (List.getElem?_eq_some_iff.mp hzero).1
  have hinside : ∀ q ∈ dependants graph place, q < graph.length := fun q hq =>
    List.mem_range.mp (List.mem_filter.mp hq).1
  rw [Countdown.putInOrder, getElem?_dependantsTable hlt]
  refine ⟨_, rfl, ⟨h.length, fun q hq => ?_, dependants_nodup graph place, hinside, h.zero,
    h.entered, ?_⟩, rfl, rfl⟩
  · show c.pending[q]? = some (openProviders graph (c.order ++ [place]) q +
      if q ∈ dependants graph place then 1 else 0)
    rw [h.pending q hq, htodo, if_neg List.not_mem_nil, openProviders_append hg hnotin]
    simp only [mem_dependants, Nat.add_zero]
  · show c.entered.Perm (c.order ++ [place] ++ ready)
    rwa [List.append_assoc, List.singleton_append]

/-- No step breaks the loop off. -/
theorem Sound.turn (hg : IsSimple graph) (h : Sound graph c) :
    ∃ d, c.turn (dependantsTable graph) = some d ∧ Sound graph d := by
  cases htodo : c.todo with
  | cons place todo =>
    obtain ⟨d, hd, hsound, -⟩ := h.countOff htodo
    exact ⟨d, (turn_of_todo htodo).trans hd, hsound⟩
  | nil =>
    cases hready : c.ready with
    | cons place ready =>
      obtain ⟨d, hd, hsound, -⟩ := h.putInOrder hg htodo hready
      exact ⟨d, (turn_of_ready htodo hready).trans hd, hsound⟩
    | nil => exact ⟨c, by rw [Countdown.turn, htodo, hready], h⟩

theorem Sound.turns (hg : IsSimple graph) (h : Sound graph c) (count : Nat) :
    ∃ d, turns (dependantsTable graph) count c = some d ∧ Sound graph d := by
  induction count generalizing c with
  | zero => exact ⟨c, rfl, h⟩
  | succ count ih =>
    obtain ⟨d, hd, hsound⟩ := h.turn hg
    rw [Countdown.turns, hd]
    exact ih hsound

end Steps

/-! ## The end of the loop -/

section Rounds

variable {graph : List (List Nat)} {c : Countdown}

theorem turns_add (table : List (List Nat)) (m n : Nat) (c : Countdown) :
    turns table (m + n) c = (turns table m c).bind (turns table n) := by
  induction m generalizing c with
  | zero => rw [Nat.zero_add, turns, Option.bind_some]
  | succ m ih =>
    rw [Nat.succ_add, turns, turns, Option.bind_assoc]
    exact congrArg _ (funext fun d => ih d)

/-- All places that are to be counted down have their turn. -/
theorem Sound.turns_todo (h : Sound graph c) :
    ∃ d, Countdown.turns (dependantsTable graph) c.todo.length c = some d ∧ d.todo = [] ∧
      d.toSorting = c.todo.foldl Sorting.satisfy c.toSorting := by
  generalize htodo : c.todo = todo
  induction todo generalizing c with
  | nil => exact ⟨c, rfl, htodo, rfl⟩
  | cons place todo ih =>
    obtain ⟨d, hd, hsound, hrest, hsorting⟩ := h.countOff htodo
    obtain ⟨e, he, hdone, hend⟩ := ih hsound hrest
    refine ⟨e, ?_, hdone, by rw [hend, hsorting, List.foldl_cons]⟩
    rw [List.length_cons, Countdown.turns, turn_of_todo htodo, hd]
    exact he

/-- The steps from one place that is put in order to the next make one round of a sorting. -/
theorem Sound.exists_turns_next (hg : IsSimple graph) (h : Sound graph c) (htodo : c.todo = []) :
    ∃ count d, Countdown.turns (dependantsTable graph) count c = some d ∧ d.todo = [] ∧
      d.toSorting = c.next graph := by
  cases hready : c.ready with
  | nil => exact ⟨0, c, rfl, htodo, (Sorting.next_of_ready_eq_nil hready).symm⟩
  | cons place ready =>
    obtain ⟨d, hd, hsound, hrest, hsorting⟩ := h.putInOrder hg htodo hready
    obtain ⟨e, he, hdone, hend⟩ := hsound.turns_todo
    refine ⟨1 + d.todo.length, e, ?_, hdone, ?_⟩
    · rw [turns_add, Countdown.turns, turn_of_ready htodo hready, hd]
      exact he
    · rw [hend, hrest, hsorting, Sorting.next, hready]

theorem Sound.exists_turns_run (hg : IsSimple graph) (h : Sound graph c) (htodo : c.todo = [])
    (rounds : Nat) :
    ∃ count d, Countdown.turns (dependantsTable graph) count c = some d ∧ d.todo = [] ∧
      d.toSorting = Sorting.run graph rounds c.toSorting := by
  induction rounds generalizing c with
  | zero => exact ⟨0, c, rfl, htodo, rfl⟩
  | succ rounds ih =>
    obtain ⟨m, d, hd, hdone, hnext⟩ := h.exists_turns_next hg htodo
    obtain ⟨d', hd', hsound⟩ := h.turns hg m
    obtain rfl := Option.some.inj (hd.symm.trans hd')
    obtain ⟨n, e, he, hend, hrun⟩ := ih hsound hdone
    refine ⟨m + n, e, ?_, hend, by rw [hrun, hnext, Sorting.run]⟩
    rw [turns_add, hd, Option.bind_some, he]

/-- The loop comes to an end, and there it has sorted what can be sorted. -/
theorem exists_turns_finish (hg : IsSimple graph) :
    ∃ count c, turns (dependantsTable graph) count (start graph) = some c ∧ c.todo = [] ∧
      c.toSorting = Sorting.finish graph :=
  (Sound.start graph).exists_turns_run hg rfl graph.length

end Rounds

end Countdown

end BootEngine.Plan
