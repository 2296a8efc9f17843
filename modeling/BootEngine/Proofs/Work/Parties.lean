import BootEngine.Proofs.Work.Clearing
import BootEngine.Proofs.Work.Turns

/-!
# Parties in one world

Those who keep to realms that have nothing in common can share a world. What the one does leaves the
other as it was: the units, the names and the part of the application that belong to it. The events
that are recorded belong to the one or to the other.

Contents:
* `Leaves`, `Agree.frame`: worlds still agree about a realm after somebody else has been at work.
* `Pairing.SharesNothing`: two parties have no unit and no transaction in common.
* `Foresees`: the events of a party are those of the same party in a world of its own.
* `Told`: what has been heard of a party is what has been written down in a world of its own.
-/

namespace BootEngine.Transaction

/-- The same event with another number. -/
def Event.renumber (f : Handle → Handle) : Event → Event
  | .begin h => .begin (f h)
  | .commit h => .commit (f h)
  | .rollback h => .rollback (f h)

end BootEngine.Transaction

namespace BootEngine.Work

open Transaction (Terminal Handle Source Event)

variable {H : Host}

/-! ## Leaving others alone -/

/-- The units of the left run. -/
def Pairing.leftUnits (N : Pairing) : List UnitId := N.units.map Prod.fst

/-- The transactions of the left run. -/
def Pairing.opened (N : Pairing) : List Handle := N.handles.map Prod.fst

theorem Pairing.mem_leftUnits {N : Pairing} {p : UnitId × UnitId} (hp : p ∈ N.units) :
    p.1 ∈ N.leftUnits := List.mem_map_of_mem hp

/-- What happens to a world leaves units and the names of a realm as they were. -/
structure Leaves (R : Realm H) (us : List UnitId) (w w' : World H) : Prop where
  runtime : w'.hasRuntime = w.hasRuntime
  longer : w.units.length ≤ w'.units.length
  later : nextHandle w.source ≤ nextHandle w'.source
  units : ∀ u ∈ us, w'.unit u = w.unit u
  names : ∀ name, R.names name → w'.names.lookup name = w.names.lookup name

theorem Leaves.refl (R : Realm H) (us : List UnitId) (w : World H) : Leaves R us w w :=
  ⟨rfl, Nat.le_refl _, Nat.le_refl _, fun _ _ => rfl, fun _ _ => rfl⟩

section Frame

variable {R S : Realm H} {n : Nat} {N N' F F' : Pairing} {w w' v v' x x' : World H}

/-- Worlds agree about a realm if they did before, and have been left as they were since. -/
theorem Agree.frame (h : Agree R N n w v) (hleft : Leaves R N.leftUnits w w')
    (hright : Leaves R (N.units.map Prod.snd) v v') (hhost : R.same w'.host v'.host)
    (hspare : HasSpare (n - w'.requests) w'.source ∧ HasSpare (n - v'.requests) v'.source)
    (hfewer : v'.requests ≤ w'.requests) : Agree R N n w' v' where
  runtime := ⟨hleft.runtime.trans h.runtime.1, hright.runtime.trans h.runtime.2⟩
  host := hhost
  unique := h.unique
  made := fun p hp => ⟨Nat.lt_of_lt_of_le (h.made p hp).1 hleft.longer,
    Nat.lt_of_lt_of_le (h.made p hp).2 hright.longer⟩
  begun := fun p hp => ⟨Nat.lt_of_lt_of_le (h.begun p hp).1 hleft.later,
    Nat.lt_of_lt_of_le (h.begun p hp).2 hright.later⟩
  units := fun p hp => by
    rw [hleft.units _ (Pairing.mem_leftUnits hp), hright.units _ (List.mem_map_of_mem hp)]
    exact h.units p hp
  names := fun name hname => by
    rw [hleft.names name hname, hright.names name hname]
    exact h.names name hname
  spare := hspare
  fewer := hfewer

/-- Who keeps to another realm leaves everything else as it was. -/
theorem Since.leaves (hsince : Since S ⟨F, w, x⟩ F' w' x') (hbefore : w.hasRuntime = true)
    (hafter : w'.hasRuntime = true) {us : List UnitId} (hus : ∀ u ∈ us, u ∉ F'.leftUnits)
    (hnames : ∀ name, R.names name → ¬ S.names name) : Leaves R us w w' where
  runtime := hafter.trans hbefore.symm
  longer := hsince.longer.1
  later := hsince.later
  units := fun u hu => hsince.units u (hus u hu)
  names := fun name hname => hsince.names name (hnames name hname)

/-- Rollbacks in the background leave everything as it was, and so does the clock. -/
theorem Leaves.clear {k : Nat} {cs : List Cleanup} {us : List UnitId}
    (h : Clears k cs { w with background := [] } w') (now : Nat) :
    Leaves R us w { w' with now } where
  runtime := h.runtime
  longer := Nat.le_of_eq (congrArg List.length h.units.symm)
  later := Nat.le_of_eq h.next.symm
  units := fun u _ => congrArg (fun units => (units[u]?).getD UnitState.idle) h.units
  names := fun name _ => congrArg (List.lookup name) h.names

theorem Since.requests (hsince : Since R ⟨N, w, v⟩ N' w' v') : w.requests ≤ w'.requests := by
  obtain ⟨ws, ws', new, hw⟩ := hsince.written
  have hjournal : w'.journal = ws ++ w.journal := hw.left
  rw [World.requests, World.requests, hjournal, List.countP_append]
  exact Nat.le_add_left _ _

/-- Two parties in one world have no unit and no transaction in common. -/
structure Pairing.SharesNothing (N F : Pairing) : Prop where
  units : ∀ p ∈ F.units, p.1 ∉ N.leftUnits ∧ p.2 ∉ N.leftUnits
  handles : ∀ h ∈ F.opened, h ∉ N.opened

theorem mem_opened_begun (h : Agree R N n w v) {id : Handle} (hid : id ∈ N.opened) :
    id < nextHandle w.source := by
  obtain ⟨p, hp, rfl⟩ := List.mem_map.mp hid
  exact (h.begun p hp).1

theorem mem_leftUnits_made (h : Agree R N n w v) {u : UnitId} (hu : u ∈ N.leftUnits) :
    u < w.units.length := by
  obtain ⟨p, hp, rfl⟩ := List.mem_map.mp hu
  exact (h.made p hp).1

/-- A transaction is new, or has been opened before. -/
theorem Since.mem_opened (hsince : Since R ⟨N, w, v⟩ N' w' v') {id : Handle}
    (hid : id ∈ N'.opened) : id ∈ N.opened ∨ nextHandle w.source ≤ id := by
  obtain ⟨ws, ws', new, hw⟩ := hsince.written
  obtain ⟨p, hp, rfl⟩ := List.mem_map.mp hid
  rw [hw.handles] at hp
  exact (List.mem_append.mp hp).imp List.mem_map_of_mem (hw.fresh p)

theorem Since.opened_subset (hsince : Since R ⟨N, w, v⟩ N' w' v') {id : Handle}
    (hid : id ∈ N.opened) : id ∈ N'.opened := by
  obtain ⟨ws, ws', new, hw⟩ := hsince.written
  obtain ⟨p, hp, rfl⟩ := List.mem_map.mp hid
  refine List.mem_map_of_mem ?_
  rw [hw.handles]
  exact List.mem_append_left _ hp

/-- The one party goes on. -/
theorem Pairing.SharesNothing.left (h : N.SharesNothing F) (hF : Agree S F n w w)
    (hsince : Since R ⟨N, w, v⟩ N' w' v') : N'.SharesNothing F where
  units := fun p hp => by
    have hnew : ∀ u < w.units.length, u ∉ N.leftUnits → u ∉ N'.leftUnits := by
      intro u hu hout hin
      obtain ⟨q, hq, rfl⟩ := List.mem_map.mp hin
      rcases hsince.made q hq with hold | ⟨hle, -⟩
      · exact hout (Pairing.mem_leftUnits hold)
      · exact Nat.not_lt_of_le hle hu
    exact ⟨hnew _ (hF.made p hp).1 (h.units p hp).1, hnew _ (hF.made p hp).2 (h.units p hp).2⟩
  handles := fun id hid hin => by
    rcases hsince.mem_opened hin with hold | hle
    · exact h.handles id hid hold
    · exact Nat.not_lt_of_le hle (mem_opened_begun hF hid)

/-- The other party goes on. -/
theorem Pairing.SharesNothing.right (h : N.SharesNothing F) (hN : Agree R N n w v)
    (hsince : Since S ⟨F, w, w⟩ F' w' x') : N.SharesNothing F' where
  units := fun p hp => by
    rcases hsince.made p hp with hold | ⟨hle, hle'⟩
    · exact h.units p hold
    · exact ⟨fun hin => Nat.not_lt_of_le hle (mem_leftUnits_made hN hin),
        fun hin => Nat.not_lt_of_le hle' (mem_leftUnits_made hN hin)⟩
  handles := fun id hid hin => by
    rcases hsince.mem_opened hid with hold | hle
    · exact h.handles id hold hin
    · exact Nat.not_lt_of_le hle (mem_opened_begun hN hin)

end Frame

/-! ## Events -/

/-- The events of one party in a shared world, those of its rollbacks in the background included,
    are those of a world of its own. -/
structure Foresees (N : Pairing) (w v : World H) : Prop where
  fresh : w.IsFresh ∧ v.IsFresh
  known : ∀ e ∈ w.prospect, e.id < nextHandle w.source
  alike : List.Forall₂ (EventLike N) (w.prospect.filter (·.id ∈ N.opened)) v.prospect

section Events

variable {R S : Realm H} {n : Nat} {N N' F F' : Pairing} {w w' v v' x x' : World H}

theorem EventLike.mem_opened {e e' : Event} (h : EventLike N e e') : e.id ∈ N.opened := by
  cases h <;> exact List.mem_map_of_mem (by assumption)

theorem forall₂_mem_left {α β : Type} {r : α → β → Prop} {as : List α} {bs : List β}
    (h : List.Forall₂ r as bs) {a : α} (ha : a ∈ as) : ∃ b, r a b := by
  induction h with
  | nil => exact (List.not_mem_nil ha).elim
  | cons hab _ ih =>
    rcases List.mem_cons.mp ha with rfl | ha
    · exact ⟨_, hab⟩
    · exact ih ha

theorem mem_opened_of_forall₂ {es es' : List Event} (h : List.Forall₂ (EventLike N) es es') :
    ∀ e ∈ es, e.id ∈ N.opened := by
  intro e he
  obtain ⟨e', he'⟩ := forall₂_mem_left h he
  exact he'.mem_opened

/-- The rollbacks that have been put off. -/
theorem rollbacks_fresh (hs : List Handle) :
    ((hs.map .fresh).map fun c : Cleanup => Event.rollback c.handle) = hs.map .rollback := by
  rw [List.map_map]
  rfl

theorem rollbacks_like {hs hs' : List Handle}
    (h : List.Forall₂ (fun h h' => (h, h') ∈ N.handles) hs hs') :
    List.Forall₂ (EventLike N) (hs.map .rollback) (hs'.map .rollback) :=
  List.forall₂_map_left_iff.mpr (List.forall₂_map_right_iff.mpr (h.imp fun _ _ hh => .rollback hh))

theorem isFresh_append {hs : List Handle} (hw : w.IsFresh)
    (hback : w'.background = w.background ++ hs.map .fresh) : w'.IsFresh := by
  intro c hc
  rw [hback] at hc
  rcases List.mem_append.mp hc with hc | hc
  · exact hw c hc
  · obtain ⟨h, -, rfl⟩ := List.mem_map.mp hc
    rfl

/-- What a party does shows in the events to come. -/
theorem Since.prospect (hsince : Since R ⟨N, w, v⟩ N' w' v') :
    ∃ es es' hs hs', w'.prospect =
        (w.source.events ++ es) ++ ((w.background.map fun c => .rollback c.handle) ++ hs) ∧
      v'.prospect =
        (v.source.events ++ es') ++ ((v.background.map fun c => .rollback c.handle) ++ hs') ∧
      List.Forall₂ (EventLike N') es es' ∧ List.Forall₂ (EventLike N') hs hs' := by
  obtain ⟨es, es', hes, hes', hlike⟩ := hsince.events
  obtain ⟨hs, hs', hback, hback', hboth⟩ := hsince.background
  refine ⟨es, es', hs.map .rollback, hs'.map .rollback, ?_, ?_, hlike, rollbacks_like hboth⟩
  · rw [World.prospect, hes, hback, List.map_append, rollbacks_fresh]
  · rw [World.prospect, hes', hback', List.map_append, rollbacks_fresh]

theorem Since.isFresh (hsince : Since R ⟨N, w, v⟩ N' w' v') (hw : w.IsFresh) (hv : v.IsFresh) :
    w'.IsFresh ∧ v'.IsFresh := by
  obtain ⟨hs, hs', hback, hback', -⟩ := hsince.background
  exact ⟨isFresh_append hw hback, isFresh_append hv hback'⟩

/-- All events are about transactions that have begun. -/
theorem Since.known (hsince : Since R ⟨N, w, v⟩ N' w' v') (hagree : Agree R N' n w' v')
    (hknown : ∀ e ∈ w.prospect, e.id < nextHandle w.source) :
    ∀ e ∈ w'.prospect, e.id < nextHandle w'.source := by
  obtain ⟨es, es', hs, hs', hleft, -, hlike, hboth⟩ := hsince.prospect
  intro e he
  rw [hleft] at he
  have hold : e ∈ w.prospect → e.id < nextHandle w'.source := fun hin =>
    Nat.lt_of_lt_of_le (hknown e hin) hsince.later
  rcases List.mem_append.mp he with he | he <;> rcases List.mem_append.mp he with he | he
  · exact hold (List.mem_append_left _ he)
  · exact mem_opened_begun hagree (mem_opened_of_forall₂ hlike e he)
  · exact hold (List.mem_append_right _ he)
  · exact mem_opened_begun hagree (mem_opened_of_forall₂ hboth e he)

/-- The rollbacks in the background run on the left. -/
theorem Foresees.clearLeft {k : Nat} (h : Foresees N w v)
    (hclears : Clears k w.background { w with background := [] } w') (now : Nat) :
    Foresees N { w' with now } v := by
  have hback : w'.background = [] := hclears.background
  have hsame : World.prospect { w' with now } = w.prospect := by
    show w'.source.events ++ w'.background.map _ = _
    rw [hback, hclears.events]
    exact List.append_nil _
  refine ⟨⟨fun c hc => ?_, h.fresh.2⟩, ?_, ?_⟩
  · exact absurd (hback ▸ hc) List.not_mem_nil
  · rw [hsame]
    exact fun e he => Nat.lt_of_lt_of_eq (h.known e he) hclears.next.symm
  · rw [hsame]
    exact h.alike

/-- The rollbacks in the background run on the right. -/
theorem Foresees.clearRight {k : Nat} (h : Foresees N w v)
    (hclears : Clears k v.background { v with background := [] } v') (now : Nat) :
    Foresees N w { v' with now } := by
  have hback : v'.background = [] := hclears.background
  have hsame : World.prospect { v' with now } = v.prospect := by
    show v'.source.events ++ v'.background.map _ = _
    rw [hback, hclears.events]
    exact List.append_nil _
  refine ⟨⟨h.fresh.1, fun c hc => ?_⟩, h.known, ?_⟩
  · exact absurd (hback ▸ hc) List.not_mem_nil
  · rw [hsame]
    exact h.alike

/-- The party goes on; nothing of it was in the background. -/
theorem Foresees.own (h : Foresees N w v) (hagree : Agree R N' n w' v')
    (hsince : Since R ⟨N, w, v⟩ N' w' v') (hleft : ∀ c ∈ w.background, c.handle ∉ N.opened)
    (hright : v.background = []) : Foresees N' w' v' := by
  refine ⟨hsince.isFresh h.fresh.1 h.fresh.2, hsince.known hagree h.known, ?_⟩
  obtain ⟨es, es', hs, hs', hw, hv, hlike, hboth⟩ := hsince.prospect
  have hsame : ∀ e ∈ w.prospect, e.id ∈ N'.opened ↔ e.id ∈ N.opened := fun e he =>
    ⟨fun hin => (hsince.mem_opened hin).resolve_right (Nat.not_le_of_lt (h.known e he)),
      hsince.opened_subset⟩
  have hpast : w.source.events.filter (·.id ∈ N'.opened) =
      w.source.events.filter (·.id ∈ N.opened) :=
    List.filter_congr fun e he => decide_eq_decide.mpr (hsame e (List.mem_append_left _ he))
  have hnone : ∀ M : Pairing, M = N ∨ M = N' →
      (w.background.map fun c => Event.rollback c.handle).filter (·.id ∈ M.opened) = [] := by
    intro M hM
    refine List.filter_eq_nil_iff.mpr fun e he => ?_
    rw [decide_eq_true_iff]
    have hout : e.id ∉ N.opened := by
      obtain ⟨c, hc, rfl⟩ := List.mem_map.mp he
      exact hleft c hc
    rcases hM with rfl | rfl
    · exact hout
    · exact fun hin => hout ((hsame e (List.mem_append_right _ he)).mp hin)
  have hall : ∀ fs : List Event, (∀ e ∈ fs, e.id ∈ N'.opened) →
      fs.filter (·.id ∈ N'.opened) = fs := fun fs hfs =>
    List.filter_eq_self.mpr fun e he => decide_eq_true (hfs e he)
  have hbefore : List.Forall₂ (EventLike N) (w.source.events.filter (·.id ∈ N.opened))
      v.source.events := by
    have hprospect := h.alike
    rwa [World.prospect, World.prospect, hright, List.filter_append, hnone N (.inl rfl),
      List.map_nil, List.append_nil, List.append_nil] at hprospect
  have hle : N ≤ N' := by
    obtain ⟨ws, ws', new, hwritten⟩ := hsince.written
    exact ⟨hsince.goesOn, hwritten.handles ▸ List.subset_append_left ..⟩
  rw [hw, hv, List.filter_append, List.filter_append, List.filter_append, hpast,
    hnone N' (.inr rfl), hall es (mem_opened_of_forall₂ hlike),
    hall hs (mem_opened_of_forall₂ hboth), hright, List.map_nil, List.nil_append, List.nil_append]
  exact List.rel_append (List.rel_append (hbefore.imp fun _ _ he => he.mono hle) hlike) hboth

/-- Others go on. -/
theorem Foresees.others (h : Foresees N w v) (hagree : Agree S F' n w' x')
    (hsince : Since S ⟨F, w, x⟩ F' w' x') (hnothing : N.SharesNothing F') : Foresees N w' v := by
  obtain ⟨es, es', hs, hs', hw, -, hlike, hboth⟩ := hsince.prospect
  have hfresh : w'.IsFresh := by
    obtain ⟨hs, hs', hback, -, -⟩ := hsince.background
    exact isFresh_append h.fresh.1 hback
  refine ⟨⟨hfresh, h.fresh.2⟩, hsince.known hagree h.known, ?_⟩
  have hnone : ∀ fs : List Event, (∀ e ∈ fs, e.id ∈ F'.opened) →
      fs.filter (·.id ∈ N.opened) = [] := fun fs hfs =>
    List.filter_eq_nil_iff.mpr fun e he hin =>
      hnothing.handles _ (hfs e he) (of_decide_eq_true hin)
  have hsame : w'.prospect.filter (·.id ∈ N.opened) = w.prospect.filter (·.id ∈ N.opened) := by
    rw [hw, World.prospect, List.filter_append, List.filter_append, List.filter_append,
      List.filter_append, hnone es (mem_opened_of_forall₂ hlike),
      hnone hs (mem_opened_of_forall₂ hboth), List.append_nil, List.append_nil]
  rw [hsame]
  exact h.alike

end Events

/-! ## What has been heard -/

/-- What has been written down in what has been heard. -/
def entriesOf (T : List (Heard H)) : List (Entry H) := T.filterMap Heard.entry?

/-- What has been heard of a party is what has been written down in a world of its own, apart from
    the numbers of transactions; there they are numbered from the first one on. -/
structure Told (N : Pairing) (T : List (Heard H)) (v : World H) : Prop where
  shown : (entriesOf T).filterMap Entry.unnumbered? =
    v.journal.reverse.filterMap Entry.unnumbered?
  opened : openedIn (entriesOf T) = N.opened
  numbered : N.handles.map Prod.snd = List.range' 1 N.handles.length
  next : nextHandle v.source = 1 + N.handles.length

section Told

variable {R : Realm H} {n : Nat} {N N' : Pairing} {w w' v v' : World H} {T : List (Heard H)}

theorem entriesOf_turn (T : List (Heard H)) (entries : List (Entry H)) {last : List (Heard H)}
    (hlast : last.filterMap Heard.entry? = []) :
    entriesOf (T ++ entries.map .wrote ++ last) = entriesOf T ++ entries := by
  have hwrote : (entries.map Heard.wrote).filterMap Heard.entry? = entries := by
    rw [List.filterMap_map]
    exact List.filterMap_some
  rw [entriesOf, List.filterMap_append, List.filterMap_append, hwrote, hlast, List.append_nil]
  rfl

/-- The party goes on. -/
theorem Told.own (h : Told N T v) (hsince : Since R ⟨N, w, v⟩ N' w' v') {last : List (Heard H)}
    (hlast : last.filterMap Heard.entry? = []) :
    Told N' (T ++ (w.since w').map .wrote ++ last) v' := by
  obtain ⟨ws, ws', new, hw⟩ := hsince.written
  have hlength : N'.handles.length = N.handles.length + new.length := by
    rw [hw.handles, List.length_append]
  have hentries : entriesOf (T ++ (w.since w').map .wrote ++ last) = entriesOf T ++ ws.reverse := by
    rw [entriesOf_turn T _ hlast, since_of_append hw.left]
  refine ⟨?_, ?_, ?_, ?_⟩
  · rw [hentries, hw.right, List.filterMap_append, h.shown, List.reverse_append,
      List.filterMap_append, List.filterMap_reverse, List.filterMap_reverse, hw.shown,
      List.filterMap_reverse]
  · rw [hentries, openedIn, List.filterMap_append, List.filterMap_reverse, Pairing.opened,
      hw.handles, List.map_append, hw.opened]
    exact congrArg (· ++ _) h.opened
  · rw [hlength, hw.handles, List.map_append, h.numbered, hw.numbered, h.next]
    exact List.range'_append_1
  · rw [hw.next, h.next, hlength, Nat.add_assoc]

/-- Nothing is heard of a party while its rollbacks run in the background. -/
theorem Told.clear {k : Nat} {cs : List Cleanup} (h : Told N T v)
    (hclears : Clears k cs { v with background := [] } v') (now : Nat) :
    Told N T { v' with now } := by
  obtain ⟨ws, hws, hshown⟩ := hclears.journal
  refine ⟨?_, h.opened, h.numbered, hclears.next.trans h.next⟩
  have hnone : ws.reverse.filterMap Entry.unnumbered? = [] := by
    rw [List.filterMap_reverse, hshown]
    rfl
  show _ = v'.journal.reverse.filterMap Entry.unnumbered?
  rw [h.shown, hws, List.reverse_append, List.filterMap_append, hnone, List.append_nil]

/-- A transaction of the party is numbered in a world of its own as it is opened here. -/
theorem Told.idxOf (h : Told N T v) (hunique : N.IsUnique) {id id' : Handle}
    (hin : (id, id') ∈ N.handles) : N.opened.idxOf id + 1 = id' := by
  have hid : id ∈ N.opened := List.mem_map_of_mem hin
  have hbound := List.idxOf_lt_length_of_mem hid
  have hget : N.opened[N.opened.idxOf id]? = some id := by
    rw [List.getElem?_eq_getElem hbound, List.getElem_idxOf hbound]
  generalize N.opened.idxOf id = j at hbound hget
  rw [Pairing.opened, List.length_map] at hbound
  rw [Pairing.opened, List.getElem?_map, List.getElem?_eq_getElem hbound, Option.map_some,
    Option.some_inj] at hget
  have hsecond : (N.handles.map Prod.snd)[j]? = some (1 + j) := by
    rw [h.numbered, List.getElem?_range' hbound, Nat.one_mul]
  rw [List.getElem?_map, List.getElem?_eq_getElem hbound, Option.map_some, Option.some_inj]
    at hsecond
  rw [Nat.add_comm, ← hsecond]
  exact (hunique.handles _ (List.getElem_mem hbound) _ hin).mp hget

/-- The events of a party, renumbered in the order in which its transactions are opened. -/
theorem Told.renumber (h : Told N T v) (hunique : N.IsUnique) {es es' : List Event}
    (hlike : List.Forall₂ (EventLike N) es es') :
    es.map (Event.renumber fun id => (openedIn (entriesOf T)).idxOf id + 1) = es' := by
  rw [h.opened]
  induction hlike with
  | nil => rfl
  | cons he _ ih =>
    rw [List.map_cons, ih]
    cases he with
    | begin hh => rw [Event.renumber, h.idxOf hunique hh]
    | commit hh => rw [Event.renumber, h.idxOf hunique hh]
    | rollback hh => rw [Event.renumber, h.idxOf hunique hh]

end Told

end BootEngine.Work
