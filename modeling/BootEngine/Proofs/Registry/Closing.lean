import BootEngine.Proofs.Registry.Disposal
import BootEngine.Proofs.Registry.Lookup

/-!
# Closing a registry

A registry is closed once. From then on it finds nothing, even while the components that hold
something still have their turns, and whatever is put in or asked for later. A second attempt to
close it does nothing.

Contents:
* `Registry.Use`, `Registry.after`, `Registry.filled`: the uses of a registry that may change it.
* `complaint?`, `disposeAll_ends`: how the turns of a release end.
* `Silent`, `silent_of_closed`: a registry that has been closed.
* `Registry.closing`, `Registry.shutdown_eq_last`: the states that a registry goes through while it
  is closed, and its answer in the last of them.
* `ClosesOnce`, `closesOnce`: what becomes of a registry that is closed.
-/

namespace BootEngine

open Component (Kind Key Instance Disposer)

/-! ## Uses of a registry -/

namespace Registry

/-- A use of a registry that may change it. -/
inductive Use where
  | insert (key : Key) (item : Instance)
  | shutdown (limit : Nat)

/-- A registry after a use. A component whose key is taken is not put in. -/
def after (r : Registry) : Use → Registry
  | .insert key item =>
    match r.insert key item with
    | .ok s => s
    | .error _ => r
  | .shutdown limit => (r.shutdown limit).2.2

/-- A registry into which components have been put, one after another. -/
def filled (source : Option String) (coordinator : Option Transaction.Coordinator)
    (offers : List (Key × Instance)) : Registry :=
  offers.foldl (fun r offer => r.after (.insert offer.1 offer.2)) ⟨[], source, coordinator, false⟩

theorem after_insert_cases (r : Registry) (key : Key) (item : Instance) :
    r.after (.insert key item) = r ∨
      key ∉ r.entries.map Prod.fst ∧
        r.after (.insert key item) = { r with entries := r.entries ++ [(key, item)] } := by
  unfold after insert
  dsimp only
  cases hfind : r.find? key with
  | some other => exact .inl rfl
  | none => exact .inr ⟨find?_eq_none_iff.mp hfind, rfl⟩

/-- Components can be put into a registry, and it stays open and has no key twice. -/
theorem filled_sound (source : Option String) (coordinator : Option Transaction.Coordinator)
    (offers : List (Key × Instance)) :
    (filled source coordinator offers).closed = false ∧
      ((filled source coordinator offers).entries.map Prod.fst).Nodup := by
  have hkeeps : ∀ (r : Registry), r.closed = false ∧ (r.entries.map Prod.fst).Nodup →
      (offers.foldl (fun r offer => r.after (.insert offer.1 offer.2)) r).closed = false ∧
        ((offers.foldl (fun r offer => r.after (.insert offer.1 offer.2)) r).entries.map
          Prod.fst).Nodup := by
    induction offers with
    | nil => exact fun r h => h
    | cons offer others ih =>
      intro r h
      rw [List.foldl_cons]
      apply ih
      obtain hsame | ⟨hnew, hadded⟩ := r.after_insert_cases offer.1 offer.2
      · rw [hsame]
        exact h
      · rw [hadded, List.map_append, List.map_singleton]
        refine ⟨h.1, h.2.append (List.nodup_singleton _) ?_⟩
        intro key hkey hin
        rw [List.mem_singleton.mp hin] at hkey
        exact hnew hkey
  exact hkeeps _ ⟨rfl, List.nodup_nil⟩

/-- A registry that has been closed is closed for good. -/
theorem closed_foldl_after {r : Registry} (h : r.closed = true) (uses : List Use) :
    (uses.foldl after r).closed = true := by
  induction uses generalizing r with
  | nil => exact h
  | cons use uses ih =>
    rw [List.foldl_cons]
    apply ih
    cases use with
    | insert key item =>
      obtain hsame | ⟨-, hadded⟩ := r.after_insert_cases key item
      · rw [hsame, h]
      · rw [hadded]
        exact h
    | shutdown limit =>
      show (r.shutdown limit).2.2.closed = true
      rw [shutdown, if_pos h]
      exact h

end Registry

/-! ## How turns end -/

/-- What is said about a component that does not give back what it holds in `limit` milliseconds:
    that it has run out of time, or why it has failed. -/
def complaint? (limit : Nat) (entry : Key × Instance) : Option String :=
  entry.2.disposer.bind fun d =>
    if limit < d.delay.getD 0 then
      some (entry.1.text ++ ": 释放超时 (" ++ toString limit ++ "ms)")
    else d.failure.map (entry.1.text ++ ": " ++ ·)

theorem disposeOne_end (limit : Nat) (key : Key) (item : Instance) {d : Disposer}
    (hd : item.disposer = some d) :
    (disposeOne limit key item.label d).2 = complaint? limit (key, item) := by
  unfold disposeOne complaint?
  rw [hd, Option.bind_some]
  by_cases hlate : limit < d.delay.getD 0
  · rw [if_neg (by omega), if_pos hlate]
  · rw [if_pos (by omega), if_neg hlate]
    cases d.failure <;> rfl

theorem disposeAll_ends (limit : Nat) (entries : List (Key × Instance)) :
    (disposeAll limit entries).2 =
      (entries.filter (·.2.isDisposable)).map (complaint? limit) := by
  induction entries with
  | nil => rfl
  | cons entry others ih =>
    obtain ⟨key, item⟩ := entry
    rw [disposeAll, List.filter_cons, Instance.isDisposable]
    cases hd : item.disposer with
    | none => exact ih
    | some d =>
      show (disposeOne limit key item.label d).2 :: (disposeAll limit others).2 = _
      rw [disposeOne_end limit key item hd, ih]
      rfl

/-- Only a component that holds something is complained about. -/
theorem isDisposable_of_complaint {limit : Nat} {entry : Key × Instance}
    (h : complaint? limit entry ≠ none) : entry.2.isDisposable = true := by
  unfold complaint? at h
  rw [Instance.isDisposable]
  cases hd : entry.2.disposer with
  | none => exact absurd (by rw [hd, Option.bind_none]) h
  | some d => rfl

/-! ## Closed registries -/

/-- A registry that finds nothing, and that cannot be closed again. -/
structure Silent (r : Registry) : Prop where
  get : ∀ kind name, r.get kind name = .error (.notRegistered (Component.requestText kind name))
  contains : ∀ key, r.contains key = false
  keys : r.keys = []
  all : ∀ kind, r.all kind = []
  shutdown : ∀ limit, r.shutdown limit = ([], .ok 0, r)

theorem silent_of_closed {r : Registry} (h : r.closed = true) : Silent r := by
  have hkeys : r.keys = [] := by rw [Registry.keys, if_pos h]
  constructor
  case get =>
    intro kind name
    simp only [Registry.get, h, if_true]
  case contains =>
    intro key
    simp only [Registry.contains, h, Bool.not_true, Bool.false_and]
  case keys => exact hkeys
  case all =>
    intro kind
    rw [Registry.all, hkeys]
    rfl
  case shutdown =>
    intro limit
    rw [Registry.shutdown, if_pos h]

/-! ## The states in between -/

namespace Registry

/-- The states that a registry goes through while it is closed: one before the first turn, and one
    after each. A registry that is closed already goes through none. -/
def closing (limit : Nat) (r : Registry) : List Release :=
  if r.closed then [] else r.entries.reverse.scanl (Release.turn limit) (.start r)

/-- The last of these states has what happens, the answer, and the registry as it is left. -/
theorem shutdown_eq_last (limit : Nat) (r : Registry) :
    r.shutdown limit = match (r.closing limit).getLast? with
      | none => ([], .ok 0, r)
      | some s => (s.events, s.outcome, s.registry) := by
  unfold shutdown closing
  split
  · rfl
  · rw [List.getLast?_scanl]

section Open

variable {r : Registry}

theorem closing_of_open (hopen : r.closed = false) (limit : Nat) :
    r.closing limit = r.entries.reverse.scanl (Release.turn limit) (.start r) := by
  rw [closing, hopen, if_neg Bool.false_ne_true]

/-- The turn of a component leads from one state to the next. -/
theorem closing_turn (hopen : r.closed = false) (limit : Nat) {i : Nat} {entry : Key × Instance}
    (hturn : r.entries.reverse[i]? = some entry) :
    ∃ s, (r.closing limit)[i]? = some s ∧
      (r.closing limit)[i + 1]? = some (s.turn limit entry) := by
  obtain ⟨hi, hentry⟩ := List.getElem?_eq_some_iff.mp hturn
  rw [closing_of_open hopen, List.getElem?_scanl, List.getElem?_scanl, if_pos (Nat.le_of_lt hi),
    if_pos (Nat.succ_le_of_lt hi), List.take_succ_eq_append_getElem hi, List.foldl_append, hentry]
  exact ⟨_, rfl, rfl⟩

/-- In each of these states some have had their turns, and the others have them afterwards. -/
theorem exists_of_mem_closing (hopen : r.closed = false) {limit : Nat} {s : Release}
    (hs : s ∈ r.closing limit) :
    ∃ before behind, r.entries.reverse = before ++ behind ∧
      s = before.foldl (Release.turn limit) (.start r) := by
  rw [closing_of_open hopen] at hs
  obtain ⟨i, hi, hat⟩ := List.getElem_of_mem hs
  exact ⟨r.entries.reverse.take i, r.entries.reverse.drop i, (List.take_append_drop ..).symm,
    hat ▸ List.getElem_scanl hi⟩

end Open

end Registry

/-! ## What becomes of a registry that is closed -/

/-- What becomes of a registry that is closed, when each component has `limit` milliseconds to give
    back what it holds. -/
structure ClosesOnce (limit : Nat) (r : Registry) : Prop where
  distinct : (r.entries.map Prod.fst).Nodup
  /-- Whatever holds something is asked once to give it back, and what was put in last is asked
      first. -/
  disposals : disposalsIn (r.shutdown limit).1 =
    (r.entries.reverse.filter (·.2.isDisposable)).map fun entry => (entry.1, entry.2.label)
  /-- Each of them has its turn when the one before it has come to its end or has been cut off. -/
  inTurn : ∃ segments, (r.shutdown limit).1 = segments.flatten ∧
    List.Forall₂ (Disposes limit) (r.entries.reverse.filter (·.2.isDisposable)) segments
  /-- If no one is complained about, then the answer says how many they were. -/
  counted : (∀ entry ∈ r.entries, complaint? limit entry = none) →
    (r.shutdown limit).2.1 = .ok (r.entries.filter (·.2.isDisposable)).length
  /-- If someone is, then the answer says all that is said, in the order of the turns. -/
  joined : (∃ entry ∈ r.entries, complaint? limit entry ≠ none) →
    (r.shutdown limit).2.1 =
      .error (.shutdownFailed ("; ".intercalate (r.entries.reverse.filterMap (complaint? limit))))
  /-- It goes through one state before the first turn and through one after each turn. -/
  states : (r.closing limit).length = r.entries.length + 1 ∧
    (r.closing limit).head? = some (.start r) ∧
      ∀ i entry, r.entries.reverse[i]? = some entry → ∃ s, (r.closing limit)[i]? = some s ∧
        (r.closing limit)[i + 1]? = some (s.turn limit entry)
  /-- The last state has the answer. -/
  answer : (r.closing limit).getLast?.map (fun s => (s.events, s.outcome, s.registry)) =
    some (r.shutdown limit)
  /-- In none of these states, from the one before the first turn on, anything is found. -/
  during : ∀ s ∈ r.closing limit, Silent s.registry ∧ s.events <+: (r.shutdown limit).1
  /-- From then on nothing is found, whatever happens to the registry. -/
  after : ∀ uses : List Registry.Use, Silent (uses.foldl Registry.after (r.shutdown limit).2.2)

/-- All that is said about components that are released comes from those that hold something. -/
theorem filterMap_ends (limit : Nat) (entries : List (Key × Instance)) :
    (disposeAll limit entries).2.filterMap id = entries.filterMap (complaint? limit) := by
  rw [disposeAll_ends, List.filterMap_map, List.filterMap_filter]
  apply List.filterMap_congr
  intro entry _
  cases hholds : entry.2.isDisposable with
  | true => rfl
  | false =>
    by_contra hsaid
    have hcomplaint : complaint? limit entry ≠ none := Ne.symm hsaid
    have hdisposable := isDisposable_of_complaint hcomplaint
    rw [hholds] at hdisposable
    cases hdisposable

theorem closesOnce {r : Registry} (hopen : r.closed = false)
    (hdistinct : (r.entries.map Prod.fst).Nodup) (limit : Nat) : ClosesOnce limit r := by
  obtain ⟨segments, hsegments, hturns⟩ := disposeAll_segments limit r.entries.reverse
  have heq := Registry.shutdown_eq hopen limit
  rw [filterMap_ends] at heq
  have hevents : (r.shutdown limit).1 = segments.flatten := by rw [heq, hsegments]
  have hclosing := Registry.closing_of_open hopen limit
  refine ⟨hdistinct, ?disposals, ⟨segments, hevents, hturns⟩, ?counted, ?joined, ?states, ?answer,
    ?during, ?after⟩
  case disposals => rw [hevents, disposalsIn_segments hturns]
  case counted =>
    intro hwell
    have hnone : r.entries.reverse.filterMap (complaint? limit) = [] := by
      apply List.filterMap_eq_nil_iff.mpr
      exact fun entry hentry => hwell entry (List.mem_reverse.mp hentry)
    rw [heq, hnone, List.isEmpty_nil, if_pos rfl, disposeAll_ends, List.length_map,
      List.filter_reverse, List.length_reverse]
  case joined =>
    rintro ⟨entry, hentry, hsaid⟩
    obtain ⟨fault, hfault⟩ := Option.ne_none_iff_exists'.mp hsaid
    have hin : fault ∈ r.entries.reverse.filterMap (complaint? limit) :=
      List.mem_filterMap.mpr ⟨entry, List.mem_reverse.mpr hentry, hfault⟩
    rw [heq, if_neg]
    rw [List.isEmpty_iff]
    exact List.ne_nil_of_mem hin
  case states =>
    refine ⟨?_, ?_, fun i entry => Registry.closing_turn hopen limit⟩
    · rw [hclosing, List.length_scanl, List.length_reverse]
    · rw [hclosing, List.head?_scanl]
  case answer =>
    rw [Registry.shutdown_eq_last, hclosing, List.getLast?_scanl]
    rfl
  case during =>
    intro s hs
    obtain ⟨before, behind, hsplit, rfl⟩ := Registry.exists_of_mem_closing hopen hs
    constructor
    · rw [Release.foldl_turn]
      exact silent_of_closed rfl
    · -- the turns behind it only add events
      rw [Registry.shutdown_eq_last, hclosing, List.getLast?_scanl, hsplit, List.foldl_append,
        Release.foldl_turn limit behind]
      exact List.prefix_append ..
  case after =>
    intro uses
    apply silent_of_closed
    apply Registry.closed_foldl_after
    rw [heq]

end BootEngine
