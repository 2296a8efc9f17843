import Mathlib.Data.Set.Card
import BootEngine.Proofs.Plan.Countdown
import BootEngine.Proofs.Plan.Cycles
import BootEngine.Proofs.Plan.Resolve

/-!
# Loops that end

A list of components is put in order by two loops. The first one counts down how many providers each
component still waits for; the other one, if something is left, walks from provider to provider.
Neither loop has a bound of its own. The first ends when nothing is ready, and the second when it
comes to a place again, which it does before it has gone more steps than there are components,
because whatever is left waits for something that is left.

Contents:
* `Stride`, `stride`, `Comes`: the walk by single steps, and how far it has come.
* `Comes.isTrail`, `stride_ne_stranded`, `exists_closed`: the walk goes on until it closes.
* `Countdown.IsExact`: what holds throughout the countdown, said by the needs of the components.
* `loops_are_safe`: both loops end well, and what they answer is the answer of the resolver.
-/

namespace BootEngine.Plan

open Component (Descriptor)

/-! ## The walk -/

/-- What a walk does next: it goes on to a new place, or it has come to a place again and tells the
    places since then, or there is no way on and it can only tell how it has come. -/
inductive Stride where
  | onward (path : List Nat) (current : Nat)
  | closed (members : List Nat)
  | stranded (path : List Nat)
  deriving DecidableEq, Repr

/-- One step of a walk, from a place to its first provider that is left. -/
def stride (graph : List (List Nat)) (left : Nat → Bool) (path : List Nat) (current : Nat) :
    Stride :=
  match (providersAt graph current).find? left with
  | none => .stranded path
  | some provider =>
    match path.idxOf? provider with
    | some first => .closed (path.drop first ++ [provider])
    | none => .onward (path ++ [provider]) provider

/-- A walk from `start` has come along a path after a number of steps. -/
inductive Comes (graph : List (List Nat)) (left : Nat → Bool) (start : Nat) :
    Nat → List Nat → Nat → Prop where
  | start : Comes graph left start 0 [start] start
  | onward {steps : Nat} {path more : List Nat} {current next : Nat} :
      Comes graph left start steps path current →
        stride graph left path current = .onward more next →
          Comes graph left start (steps + 1) more next

section Walk

variable {graph : List (List Nat)} {left : Nat → Bool} {path more members : List Nat}
  {start current next steps : Nat}

/-- A walk goes step by step. -/
theorem walk_succ (fuel : Nat) : walk graph left (fuel + 1) path current =
    match stride graph left path current with
    | .onward more next => walk graph left fuel more next
    | .closed members => some members
    | .stranded _ => none := by
  rw [walk, stride, providersAt]
  cases (graph[current]?.getD []).find? left with
  | none => rfl
  | some provider =>
    dsimp only
    cases path.idxOf? provider <;> rfl

/-- A walk that goes on has come to a place that is new to it. -/
theorem eq_of_onward (h : stride graph left path current = .onward more next) :
    (providersAt graph current).find? left = some next ∧ next ∉ path ∧ more = path ++ [next] := by
  unfold stride at h
  split at h
  · cases h
  · next provider hfind =>
    split at h
    · cases h
    · next hnew =>
      obtain ⟨rfl, rfl⟩ := Stride.onward.inj h
      exact ⟨hfind, List.idxOf?_eq_none_iff.mp hnew, rfl⟩

/-- A walk that closes has come to a place that it has been to. -/
theorem eq_of_closed (h : stride graph left path current = .closed members) :
    ∃ first visit, path[first]? = some visit ∧ members = path.drop first ++ [visit] := by
  unfold stride at h
  split at h
  · cases h
  · next provider _ =>
    split at h
    · next first hvisit =>
      rw [List.idxOf?, List.findIdx?_eq_some_iff_getElem] at hvisit
      obtain ⟨hlt, heq, -⟩ := hvisit
      refine ⟨first, provider, ?_, (Stride.closed.inj h).symm⟩
      rw [List.getElem?_eq_getElem hlt, beq_iff_eq.mp heq]
    · cases h

/-- A walk is not stranded at a place with a provider that is left. -/
theorem stride_ne_stranded
    (hcurrent : ∃ provider ∈ providersAt graph current, left provider = true) (p : List Nat) :
    stride graph left path current ≠ .stranded p := by
  obtain ⟨provider, hin, hleft⟩ := hcurrent
  unfold stride
  cases hfind : (providersAt graph current).find? left with
  | none => exact absurd hleft (List.find?_eq_none.mp hfind provider hin)
  | some next =>
    dsimp only
    cases path.idxOf? next <;> simp

/-- A walk that starts at a place that is left comes to no place twice before it closes. -/
theorem Comes.isTrail (h : Comes graph left start steps path current)
    (hstart : left start = true) :
    IsTrail graph left path current ∧ path.length = steps + 1 := by
  induction h with
  | start => exact ⟨.singleton hstart, rfl⟩
  | onward _ hstride ih =>
    obtain ⟨hfind, hnew, rfl⟩ := eq_of_onward hstride
    refine ⟨ih.1.step (List.mem_of_find?_eq_some hfind) (List.find?_some hfind) hnew, ?_⟩
    rw [List.length_append, List.length_singleton, ih.2]

/-- A walk that finds a cycle has closed at some step. -/
theorem exists_closed {fuel : Nat} (hwalk : walk graph left fuel path current = some members)
    (h : Comes graph left start steps path current) :
    ∃ steps path current, Comes graph left start steps path current ∧
      stride graph left path current = .closed members := by
  induction fuel generalizing steps path current with
  | zero => cases hwalk
  | succ fuel ih =>
    rw [walk_succ] at hwalk
    cases hstride : stride graph left path current with
    | onward more next =>
      rw [hstride] at hwalk
      exact ih hwalk (h.onward hstride)
    | closed found =>
      rw [hstride] at hwalk
      exact ⟨steps, path, current, h, hstride.trans (congrArg _ (Option.some.inj hwalk))⟩
    | stranded p =>
      rw [hstride] at hwalk
      cases hwalk

end Walk

/-! ## The countdown -/

/-- The open providers of a component are the components that it depends on outside the order. -/
theorem IsGraph.openProviders_eq_ncard {ds : List Descriptor} {graph : List (List Nat)}
    (hg : IsGraph ds graph) (order : List Nat) (place : Nat) :
    openProviders graph order place = {p | DependsOn ds place p ∧ p ∉ order}.ncard := by
  have hset : {p | DependsOn ds place p ∧ p ∉ order} =
      (((providersAt graph place).filter fun p => p ∉ order).toFinset : Set Nat) := by
    ext p
    simp [← hg.mem_iff place p]
  rw [hset, Set.ncard_coe_finset, List.toFinset_card_of_nodup
    ((hg.isSimple.nodup place).filter _), openProviders, List.countP_eq_length_filter]

/-- What holds throughout the countdown for a list of components. -/
structure Countdown.IsExact (ds : List Descriptor) (c : Countdown) : Prop where
  /-- The count of a component is the number of those that it depends on outside the order; until it
      has been counted down for the last one of the order, it is one more. -/
  pending : ∀ place < ds.length, c.pending[place]? =
    some ({p | DependsOn ds place p ∧ p ∉ c.order}.ncard + if place ∈ c.todo then 1 else 0)
  /-- No place has become ready twice, and those that have are in the order or still ready. -/
  entered : c.entered.Nodup
  kept : c.entered.Perm (c.order ++ c.ready)
  order : c.order.Nodup

theorem Countdown.Sound.isExact {ds : List Descriptor} {graph : List (List Nat)} {c : Countdown}
    (hg : IsGraph ds graph) (h : c.Sound graph) : c.IsExact ds := by
  refine ⟨fun place hlt => ?_, h.entered, h.kept, ?_⟩
  · rw [h.pending place (hg.length ▸ hlt), hg.openProviders_eq_ncard]
  · exact (List.nodup_append.mp (h.kept.nodup_iff.mp h.entered)).1

/-! ## Both loops -/

/-- A walk among what an order leaves out is on its way: it has made fewer steps than there are
    components, everything that it has come to depends on something outside the order, and it is not
    stranded. -/
structure IsOnItsWay (ds : List Descriptor) (graph : List (List Nat)) (s : Sorting) (steps : Nat)
    (path : List Nat) (current : Nat) : Prop where
  length : path.length = steps + 1
  short : steps < ds.length
  waits : ∀ place ∈ path, place < ds.length ∧ place ∉ s.order ∧
    ∃ provider, DependsOn ds place provider ∧ provider ∉ s.order
  goes : ∀ p, stride graph s.isLeft path current ≠ .stranded p

section Loops

variable {ds : List Descriptor} {graph : List (List Nat)}

/-- However far a walk has come among what a sorting has left, it is on its way. -/
theorem Comes.isOnItsWay (hg : IsGraph ds graph) {start steps current : Nat} {path : List Nat}
    (h : Comes graph (Sorting.finish graph).isLeft start steps path current)
    (hstart : (Sorting.finish graph).isLeft start = true) :
    IsOnItsWay ds graph (Sorting.finish graph) steps path current := by
  obtain ⟨htrail, hlength⟩ := h.isTrail hstart
  have hleft : ∀ place, (Sorting.finish graph).isLeft place = true →
      place < ds.length ∧ place ∉ (Sorting.finish graph).order := fun place hplace => by
    rwa [Sorting.isLeft_finish_iff hg.isSimple, hg.length] at hplace
  refine ⟨hlength, ?_, fun place hin => ?_, stride_ne_stranded ?_⟩
  · have hinside : path ⊆ List.range ds.length := fun place hin =>
      List.mem_range.mpr (hleft place (htrail.left place hin)).1
    have hle := (htrail.nodup.subperm hinside).length_le
    rw [List.length_range] at hle
    omega
  · obtain ⟨hlt, hnotin⟩ := hleft place (htrail.left place hin)
    obtain ⟨provider, hprovider, hopen⟩ :=
      Sorting.exists_left_provider hg.isSimple (htrail.left place hin)
    exact ⟨hlt, hnotin, provider, (hg.mem_iff place provider).mp hprovider,
      (hleft provider hopen).2⟩
  · exact Sorting.exists_left_provider hg.isSimple
      (htrail.left current (List.mem_of_getLast? htrail.last))

/-- A walk among what a sorting has left closes, and the answer is the cycle that it has closed. -/
theorem exists_closed_finish (h : allProviders ds = .ok graph)
    (hshort : (Sorting.finish graph).order.length < ds.length) {start : Nat} {others : List Nat}
    (hothers : (Sorting.finish graph).left = start :: others) :
    ∃ steps path current first visit,
      Comes graph (Sorting.finish graph).isLeft start steps path current ∧
        path[first]? = some visit ∧
        stride graph (Sorting.finish graph).isLeft path current =
          .closed (path.drop first ++ [visit]) ∧
        resolve ds = .error (.cyclic (keyTexts ds (path.drop first ++ [visit]))) := by
  have hg := isGraph_of_allProviders h
  obtain ⟨_, _, hcycle, -⟩ := findCycle_finish hg.isSimple (hg.length ▸ hshort)
  have hwalk := hcycle
  rw [findCycle, hothers] at hwalk
  obtain ⟨steps, path, current, hcomes, hclosed⟩ := exists_closed hwalk .start
  obtain ⟨first, visit, hvisit, hmembers⟩ := eq_of_closed hclosed
  refine ⟨steps, path, current, first, visit, hcomes, hvisit, hmembers ▸ hclosed, ?_⟩
  rw [resolve, h]
  dsimp only
  rw [if_pos hshort, hcycle, ← hmembers]
  rfl

end Loops

/-- Both loops end well whenever the providers of a list of components are found. The table of those
    that depend on each place is filled without a look outside it. No step of the countdown breaks
    off, each leaves the counts exact, and the countdown comes to an end, where just the places
    outside the order have something left to count. If all places are in the order, this is the
    answer. Otherwise there is a place from which the walk starts. However far it has come it is on
    its way; it closes, and the answer is the cycle that it has closed. -/
theorem loops_are_safe {ds : List Descriptor} {graph : List (List Nat)}
    (h : allProviders ds = .ok graph) :
    ∃ table, tabulate graph = some table ∧
      (∀ count, ∃ c, Countdown.turns table count (.start graph) = some c ∧ c.IsExact ds) ∧
      ∃ count c, Countdown.turns table count (.start graph) = some c ∧ c.todo = [] ∧ c.ready = [] ∧
        (∀ place < ds.length, c.isLeft place = true ↔ place ∉ c.order) ∧
        (ds.length ≤ c.order.length → resolve ds = .ok ⟨c.order⟩) ∧
        (c.order.length < ds.length → ∃ start others, c.left = start :: others ∧
          (∀ steps path current, Comes graph c.isLeft start steps path current →
            IsOnItsWay ds graph c.toSorting steps path current) ∧
          ∃ steps path current first visit, Comes graph c.isLeft start steps path current ∧
            path[first]? = some visit ∧
            stride graph c.isLeft path current = .closed (path.drop first ++ [visit]) ∧
            resolve ds = .error (.cyclic (keyTexts ds (path.drop first ++ [visit])))) := by
  have hg := isGraph_of_allProviders h
  have hs := hg.isSimple
  refine ⟨dependantsTable graph, tabulate_eq hs, fun count => ?_, ?_⟩
  · obtain ⟨c, hc, hsound⟩ := (Countdown.Sound.start graph).turns hs count
    exact ⟨c, hc, hsound.isExact hg⟩
  obtain ⟨count, ⟨s, todo, entered⟩, hc, hdone, hend⟩ := Countdown.exists_turns_finish hs
  dsimp only at hdone hend
  subst hdone hend
  refine ⟨count, _, hc, rfl, Sorting.ready_finish hs, fun place hlt => ?_, fun hle => ?_,
    fun hshort => ?_⟩
  · exact (Sorting.isLeft_finish_iff hs).trans (and_iff_right (hg.length ▸ hlt))
  · exact resolve_eq_ok_iff.mpr ⟨graph, h, hle, rfl⟩
  · obtain ⟨start, others, hothers⟩ := Sorting.exists_left hs (hg.length ▸ hshort)
    have hstart : (Sorting.finish graph).isLeft start = true :=
      (List.mem_filter.mp (hothers ▸ List.mem_cons_self ..)).2
    exact ⟨start, others, hothers, fun _ _ _ hcomes => hcomes.isOnItsWay hg hstart,
      exists_closed_finish h hshort hothers⟩

/-- A cart that needs the prices, prices that need the stock and a table, and a stock that needs the
    prices. Only the table can be put in order. -/
def cartWithoutStock : List Descriptor :=
  [⟨.httpHandler, "Cart", none, [.named .service "Prices"], .feature "web"⟩,
   ⟨.service, "Prices", none, [.named .service "Stock", .any .repository], .scanned "app"⟩,
   ⟨.service, "Stock", none, [.named .service "Prices"], .scanned "app"⟩,
   ⟨.repository, "Table", some "rows", [], .scanned "app"⟩]

theorem loops_are_safe_cartWithoutStock :
    allProviders cartWithoutStock = .ok [[1], [2, 3], [1], []] ∧
      (∃ table c, tabulate [[1], [2, 3], [1], []] = some table ∧
        Countdown.turns table 2 (.start [[1], [2, 3], [1], []]) = some c ∧
          c.IsExact cartWithoutStock) ∧
      ∃ (c : Countdown) (start steps : Nat) (path : List Nat) (current : Nat),
        c.order.length < cartWithoutStock.length ∧
        Comes [[1], [2, 3], [1], []] c.isLeft start steps path current ∧
          IsOnItsWay cartWithoutStock [[1], [2, 3], [1], []] c.toSorting steps path current := by
  have hgraph : allProviders cartWithoutStock = .ok [[1], [2, 3], [1], []] := by decide
  have hcyclic : resolve cartWithoutStock =
      .error (.cyclic ["Service:Prices", "Service:Stock", "Service:Prices"]) := by decide
  obtain ⟨table, htable, hexact, _, c, -, -, -, -, hall, hwalk⟩ := loops_are_safe hgraph
  have hshort : c.order.length < cartWithoutStock.length := by
    by_contra hlong
    have hplan := hall (Nat.not_lt.mp hlong)
    rw [hcyclic] at hplan
    cases hplan
  obtain ⟨c', hc'⟩ := hexact 2
  obtain ⟨start, _, -, hway, steps, path, current, _, _, hcomes, -⟩ := hwalk hshort
  exact ⟨hgraph, ⟨table, c', htable, hc'⟩, c, start, steps, path, current, hshort, hcomes,
    hway _ _ _ hcomes⟩

end BootEngine.Plan
