import BootEngine.Proofs.Registry.Closing
import BootEngine.Proofs.Registry.History

/-!
# Latecomers

A registry that has been closed still takes components, if their keys are free. But it is closed
once only, and nobody has a turn afterwards. So a component that comes late is taken and never asked
to give back what it holds, however often the registry is closed again; all that have come in time
are asked exactly once.

Contents:
* `Registry.Life`, `Registry.Life.use`, `Registry.Life.play`: a registry in use.
* `Registry.Life.Sound`, `Registry.Life.Sound.use`: what every use keeps.
* `Registry.Life.timesAsked`: how often a component is asked to give back what it holds.
* `all_asked_iff`: when all components are asked that hold something.
-/

namespace BootEngine

open Component (Key Instance)

namespace Registry

/-! ## A registry in use -/

/-- A registry in use: what has happened whenever it was closed, and the components that it has
    taken, those that came in time and those that came when it had been closed already. -/
structure Life where
  registry : Registry
  events : List ReleaseEvent
  early : List (Key × Instance)
  late : List (Key × Instance)

namespace Life

/-- A registry that has not been used yet. -/
def start (source : Option String) (coordinator : Option Transaction.Coordinator) : Life :=
  ⟨⟨[], source, coordinator, false⟩, [], [], []⟩

/-- All components that the registry has taken. -/
def taken (l : Life) : List (Key × Instance) := l.early ++ l.late

/-- Takes note of a component that the registry has taken. -/
def take (l : Life) (r : Registry) (entry : Key × Instance) : Life :=
  if l.registry.closed then { l with registry := r, late := l.late ++ [entry] }
  else { l with registry := r, early := l.early ++ [entry] }

/-- Uses the registry. -/
def use (l : Life) : Use → Life
  | .insert key item =>
    match l.registry.insert key item with
    | .ok r => l.take r (key, item)
    | .error _ => l
  | .shutdown limit =>
    let (events, _, r) := l.registry.shutdown limit
    { l with registry := r, events := l.events ++ events }

/-- Uses the registry several times. -/
def play (l : Life) (uses : List Use) : Life := uses.foldl use l

/-- How often the component under a key has been asked to give back what it holds. -/
def timesAsked (l : Life) (key : Key) : Nat := ((disposalsIn l.events).map Prod.fst).count key

/-! ## What every use keeps -/

/-- What holds of a registry in use. -/
structure Sound (l : Life) : Prop where
  entries : l.registry.entries = l.taken
  distinct : (l.taken.map Prod.fst).Nodup
  /-- While it is open, nobody has come late, and nobody has been asked for anything. -/
  unasked : l.registry.closed = false → l.late = [] ∧ disposalsIn l.events = []
  /-- When it has been closed, those that came in time have been asked, and nobody else. -/
  asked : l.registry.closed = true → disposalsIn l.events =
    (l.early.reverse.filter (·.2.isDisposable)).map fun entry => (entry.1, entry.2.label)

variable {l : Life}

theorem Sound.start (source : Option String) (coordinator : Option Transaction.Coordinator) :
    Sound (start source coordinator) :=
  ⟨rfl, List.nodup_nil, fun _ => ⟨rfl, rfl⟩, fun h => (nomatch h)⟩

theorem take_of_closed (hclosed : l.registry.closed = true) (r : Registry)
    (entry : Key × Instance) : l.take r entry = ⟨r, l.events, l.early, l.late ++ [entry]⟩ := by
  rw [take, if_pos hclosed]

theorem take_of_open (hopen : l.registry.closed = false) (r : Registry)
    (entry : Key × Instance) : l.take r entry = ⟨r, l.events, l.early ++ [entry], l.late⟩ := by
  rw [take, if_neg (Bool.eq_false_iff.mp hopen)]

/-- To take a component keeps what holds, whether it comes in time or late. -/
theorem Sound.take (h : Sound l) {entry : Key × Instance} (hnew : entry.1 ∉ l.taken.map Prod.fst) :
    Sound (l.take { l.registry with entries := l.registry.entries ++ [entry] } entry) := by
  have hdistinct : ((l.taken ++ [entry]).map Prod.fst).Nodup := by
    rw [List.map_append, List.map_singleton]
    refine h.distinct.append (List.nodup_singleton _) fun k hk hin => ?_
    exact hnew (List.mem_singleton.mp hin ▸ hk)
  obtain hclosed | hopen := Bool.eq_false_or_eq_true l.registry.closed
  · rw [take_of_closed hclosed]
    have htaken : l.early ++ (l.late ++ [entry]) = l.taken ++ [entry] :=
      (List.append_assoc ..).symm
    refine ⟨?_, ?_, fun hopen => ?_, fun _ => h.asked hclosed⟩
    · exact (congrArg (· ++ [entry]) h.entries).trans htaken.symm
    · rw [taken, htaken]
      exact hdistinct
    · cases hclosed.symm.trans hopen
  · rw [take_of_open hopen]
    obtain ⟨hnone, hquiet⟩ := h.unasked hopen
    have htaken : l.early ++ [entry] ++ l.late = l.taken ++ [entry] := by
      rw [taken, hnone, List.append_nil, List.append_nil]
    refine ⟨?_, ?_, fun _ => ⟨hnone, hquiet⟩, fun hclosed => ?_⟩
    · exact (congrArg (· ++ [entry]) h.entries).trans htaken.symm
    · rw [taken, htaken]
      exact hdistinct
    · cases hopen.symm.trans hclosed

theorem Sound.insert (h : Sound l) (key : Key) (item : Instance) :
    Sound (l.use (.insert key item)) := by
  rw [use]
  by_cases hin : key ∈ l.registry.entries.map Prod.fst
  · rw [insert_of_mem hin]
    exact h
  · rw [insert_of_notMem hin]
    exact h.take (h.entries ▸ hin)

theorem Sound.shutdown (h : Sound l) (limit : Nat) : Sound (l.use (.shutdown limit)) := by
  rw [use]
  cases hclosed : l.registry.closed with
  | true =>
    rw [(silent_of_closed hclosed).shutdown limit]
    dsimp only
    rw [List.append_nil]
    exact h
  | false =>
    obtain ⟨hnone, hquiet⟩ := h.unasked hclosed
    have hkeys : (l.registry.entries.map Prod.fst).Nodup := h.entries ▸ h.distinct
    have hasked := (closesOnce hclosed hkeys limit).disposals
    have hentries : l.registry.entries = l.early := by
      rw [h.entries, taken, hnone, List.append_nil]
    rw [Registry.shutdown_eq hclosed] at hasked ⊢
    refine ⟨h.entries, h.distinct, fun hopen => (nomatch hopen), fun _ => ?_⟩
    rw [disposalsIn_append, hquiet, List.nil_append, hasked, hentries]

theorem Sound.use (h : Sound l) (u : Use) : Sound (l.use u) := by
  cases u with
  | insert key item => exact h.insert key item
  | shutdown limit => exact h.shutdown limit

theorem Sound.play (h : Sound l) (uses : List Use) : Sound (l.play uses) := by
  induction uses generalizing l with
  | nil => exact h
  | cons u uses ih => exact ih (h.use u)

/-- After a use that closes it a registry is closed. -/
theorem closed_of_shutdown (l : Life) (limit : Nat) :
    (l.use (.shutdown limit)).registry.closed = true := by
  show (l.registry.shutdown limit).2.2.closed = true
  cases hclosed : l.registry.closed with
  | true => rw [(silent_of_closed hclosed).shutdown limit, hclosed]
  | false => rw [Registry.shutdown_eq hclosed]

/-! ## Who is asked -/

theorem Sound.map_asked (h : Sound l) (hclosed : l.registry.closed = true) :
    (disposalsIn l.events).map Prod.fst =
      (l.early.reverse.filter (·.2.isDisposable)).map Prod.fst := by
  rw [h.asked hclosed, List.map_map]
  rfl

/-- A component that came in time and holds something has been asked once. -/
theorem Sound.timesAsked_early (h : Sound l) (hclosed : l.registry.closed = true)
    {entry : Key × Instance} (hin : entry ∈ l.early) (hholds : entry.2.isDisposable = true) :
    l.timesAsked entry.1 = 1 := by
  rw [timesAsked, h.map_asked hclosed]
  have hdistinct : (l.early.map Prod.fst).Nodup := by
    have hall := h.distinct
    rw [taken, List.map_append] at hall
    exact (List.nodup_append.mp hall).1
  apply List.count_eq_one_of_mem
  · rw [List.filter_reverse, List.map_reverse, List.nodup_reverse]
    exact hdistinct.sublist (List.filter_sublist.map _)
  · exact List.mem_map_of_mem (List.mem_filter.mpr ⟨List.mem_reverse.mpr hin, hholds⟩)

/-- A component that came late has not been asked. -/
theorem Sound.timesAsked_late (h : Sound l) (hclosed : l.registry.closed = true)
    {entry : Key × Instance} (hin : entry ∈ l.late) : l.timesAsked entry.1 = 0 := by
  rw [timesAsked, h.map_asked hclosed, List.count_eq_zero]
  intro hkey
  have hearly : entry.1 ∈ l.early.map Prod.fst := by
    rw [List.filter_reverse, List.map_reverse, List.mem_reverse] at hkey
    exact (List.filter_sublist.map _).subset hkey
  have hall := h.distinct
  rw [taken, List.map_append] at hall
  exact (List.nodup_append.mp hall).2.2 _ hearly _ (List.mem_map_of_mem hin) rfl

end Life

end Registry

open Registry (Use Life)

/-- However a registry has been used, when it is closed in the end, everything that it took in time
    has been asked once to give back what it holds, what was put in last first, and nothing that it
    took after it had been closed has been asked. So everything that it took and that holds
    something has been asked exactly once if and only if nothing came late that holds something. -/
theorem all_asked_iff (source : Option String) (coordinator : Option Transaction.Coordinator)
    (uses : List Use) (limit : Nat) :
    let l := (Life.start source coordinator).play (uses ++ [.shutdown limit])
    disposalsIn l.events = (l.early.reverse.filter (·.2.isDisposable)).map
        (fun entry => (entry.1, entry.2.label)) ∧
      (∀ entry ∈ l.early, entry.2.isDisposable = true → l.timesAsked entry.1 = 1) ∧
      (∀ entry ∈ l.late, l.timesAsked entry.1 = 0) ∧
      ((∀ entry ∈ l.taken, entry.2.isDisposable = true → l.timesAsked entry.1 = 1) ↔
        ∀ entry ∈ l.late, entry.2.isDisposable = false) := by
  intro l
  have hsound : l.Sound := (Life.Sound.start source coordinator).play _
  have hclosed : l.registry.closed = true := by
    rw [show l = ((Life.start source coordinator).play uses).use (.shutdown limit) from
      List.foldl_append ..]
    exact Life.closed_of_shutdown _ limit
  have hearly := fun entry => @Life.Sound.timesAsked_early l hsound hclosed entry
  have hlate := fun entry => @Life.Sound.timesAsked_late l hsound hclosed entry
  refine ⟨hsound.asked hclosed, hearly, hlate, fun hall entry hin => ?_, fun hnone => ?_⟩
  · cases hholds : entry.2.isDisposable with
    | false => rfl
    | true =>
      have hone := hall entry (List.mem_append_right _ hin) hholds
      rw [hlate entry hin] at hone
      cases hone
  · intro entry hin hholds
    rcases List.mem_append.mp hin with hin | hin
    · exact hearly entry hin hholds
    · rw [hnone entry hin] at hholds
      cases hholds

/-- A pool comes in time, and a note that holds nothing comes late: all that hold something have
    been asked. -/
theorem all_asked_iff_lateNote :
    let pool : Key × Instance := (⟨.repository, "early"⟩, ⟨"Pool", "early", some ⟨none, none⟩⟩)
    let note : Key × Instance := (⟨.service, "late"⟩, ⟨"Note", "late", none⟩)
    let l := (Life.start none none).play
      ([.insert pool.1 pool.2, .shutdown 1000, .insert note.1 note.2] ++ [.shutdown 1000])
    l.early = [pool] ∧ l.late = [note] ∧ l.timesAsked pool.1 = 1 ∧ l.timesAsked note.1 = 0 ∧
      ∀ entry ∈ l.taken, entry.2.isDisposable = true → l.timesAsked entry.1 = 1 := by
  intro pool note l
  obtain ⟨-, hearly, hlate, hall⟩ := all_asked_iff none none
    [.insert pool.1 pool.2, .shutdown 1000, .insert note.1 note.2] 1000
  have hpool : l.early = [pool] := by decide
  have hnote : l.late = [note] := by decide
  refine ⟨hpool, hnote, hearly pool (hpool ▸ List.mem_singleton_self _) rfl,
    hlate note (hnote ▸ List.mem_singleton_self _), hall.mpr fun entry hin => ?_⟩
  rw [show entry = note from List.mem_singleton.mp (hnote ▸ hin)]
  rfl

/-- A registry is closed, takes a pool, and is closed again: the pool is not asked to give back what
    it holds. -/
theorem late_pool_not_asked :
    let key : Key := ⟨.repository, "late"⟩
    let pool : Instance := ⟨"Pool", "late", some ⟨none, none⟩⟩
    let l := (Life.start none none).play [.shutdown 1000, .insert key pool, .shutdown 1000]
    (key, pool) ∈ l.taken ∧ pool.isDisposable = true ∧ l.timesAsked key = 0 := by
  decide

end BootEngine
