import BootEngine.Proofs.Work.Likeness

/-!
# Changes to two worlds

A change of a world, and the same change of another world that agrees with it about a realm: they
agree afterwards, and what has been done to the one is what has been done to the other. Nothing has
been done to what does not belong to the realm.

Contents:
* `HasSpare.begin` and the like: a source with permits for all that ask.
* `Base`, `Written`, `Since`: what has been done since an earlier state.
* `Alike`: worlds that agree, with what has been done to them.
* `Alike.record`, `Alike.onUnit`, `Alike.addUnit` and the like: single changes.
* `Alike.openContext`, `Alike.leaveNested`, `Alike.interrupt` and the like: what scopes do.
-/

namespace BootEngine.Work

open Transaction (Terminal Handle Source Context Event Pool Lease)

variable {H : Host}

/-! ## Sources with spare permits -/

section Spare

theorem free_giveBack {p : Pool} (h : p.waiting = []) :
    p.giveBack = { p with free := p.free + 1 } := by
  unfold Pool.giveBack
  rw [h]

/-- A permit that comes back is free if nobody waits. -/
theorem release_cases {p : Pool} (h : p.waiting = []) (id : Handle) :
    ∃ leases free, p.free ≤ free ∧ p.release id = { p with leases, free } := by
  unfold Pool.release
  split
  · refine ⟨(p.onLease id fun lease => { lease with hasPermit := false }).leases, p.free + 1,
      Nat.le_succ _, ?_⟩
    exact free_giveBack (p := p.onLease id fun lease => { lease with hasPermit := false }) h
  · exact ⟨p.leases, p.free, Nat.le_refl _, rfl⟩

theorem letGo_spare {p : Pool} (h : p.waiting = []) (id : Handle) :
    ∃ leases free, p.free ≤ free ∧ p.letGo id = { p with leases, free } := by
  obtain ⟨heq, -⟩ | ⟨heq, -⟩ := p.letGo_cases id
  · obtain ⟨leases, free, hfree, hrelease⟩ :=
      release_cases (p := p.onLease id fun l => { l with holders := l.holders - 1 }) h id
    exact ⟨leases, free, hfree, heq.trans hrelease⟩
  · exact ⟨_, p.free, Nat.le_refl _, heq⟩

variable {k : Nat} {s : Source}

theorem HasSpare.mono {j : Nat} (h : HasSpare k s) (hj : j ≤ k) : HasSpare j s := by
  obtain ⟨p, hs, hwaiting, harmed, hfree⟩ := h
  exact ⟨p, hs, hwaiting, harmed, Nat.le_trans hj hfree⟩

theorem HasSpare.retain (h : HasSpare k s) (id : Handle) :
    HasSpare k (s.retain id) ∧ (s.retain id).events = s.events := by
  obtain ⟨p, rfl, hwaiting, harmed, hfree⟩ := h
  exact ⟨⟨_, rfl, hwaiting, harmed, hfree⟩, rfl⟩

theorem HasSpare.letGo (h : HasSpare k s) (id : Handle) :
    HasSpare k (s.letGo id) ∧ (s.letGo id).events = s.events := by
  obtain ⟨p, rfl, hwaiting, harmed, hfree⟩ := h
  obtain ⟨leases, free, hle, heq⟩ := letGo_spare hwaiting id
  have hsource : (Source.pool p).letGo id = .pool { p with leases, free } :=
    congrArg Source.pool heq
  rw [hsource]
  exact ⟨⟨_, rfl, hwaiting, harmed, Nat.le_trans hfree hle⟩, rfl⟩

theorem HasSpare.letGoAll (h : HasSpare k s) (ids : List Handle) :
    HasSpare k (ids.foldl (fun s id => s.letGo id) s) ∧
      (ids.foldl (fun s id => s.letGo id) s).events = s.events ∧
      nextHandle (ids.foldl (fun s id => s.letGo id) s) = nextHandle s := by
  induction ids generalizing s with
  | nil => exact ⟨h, rfl, rfl⟩
  | cons id ids ih =>
    obtain ⟨hspare, hevents⟩ := h.letGo id
    obtain ⟨hk, he, hn⟩ := ih hspare
    exact ⟨hk, he.trans hevents, hn.trans (nextHandle_letGo s id)⟩

/-- Who asks a source with a spare permit has a transaction at once. -/
theorem HasSpare.begin (h : HasSpare (k + 1) s) :
    ∃ s', s.begin = (.opened (nextHandle s), s') ∧ HasSpare k s' ∧
      nextHandle s' = nextHandle s + 1 ∧ s'.events = s.events ++ [.begin (nextHandle s)] := by
  obtain ⟨p, rfl, hwaiting, harmed, hfree⟩ := h
  have hpos : p.free > 0 := by omega
  have hbegin : p.begin = (.inl p.nextId, { p with free := p.free - 1 }.openLease.2) := by
    unfold Pool.begin
    rw [if_pos hpos]
    rfl
  refine ⟨.pool { p with free := p.free - 1 }.openLease.2, ?_, ⟨_, rfl, hwaiting, harmed, ?_⟩, rfl,
    rfl⟩
  · rw [Source.begin, hbegin]
    rfl
  · show k ≤ p.free - 1
    omega

/-- The event of a call that ends a transaction. -/
def endEvent : Terminal → Handle → Event
  | .commit, h => .commit h
  | .rollback, h => .rollback h

/-- A source that does not fail answers a terminal call at once. -/
theorem HasSpare.finish (h : HasSpare k s) (t : Terminal) (id : Handle) :
    ∃ s', s.finish t id = (⟨0, none⟩, s') ∧ HasSpare k s' ∧ nextHandle s' = nextHandle s ∧
      s'.events = s.events ++ [endEvent t id] := by
  obtain ⟨p, rfl, hwaiting, harmed, hfree⟩ := h
  obtain ⟨leases, free, hle, heq⟩ := release_cases hwaiting id
  cases t with
  | commit =>
    have hcommit : p.commit id = (none, { p with leases, free }.record (.commit id)) := by
      simp only [Pool.commit, heq, harmed, Bool.false_eq_true, if_false]
    refine ⟨.pool ({ p with leases, free }.record (.commit id)), ?_,
      ⟨_, rfl, hwaiting, harmed, Nat.le_trans hfree hle⟩, rfl, rfl⟩
    rw [Source.finish, hcommit]
  | rollback =>
    refine ⟨.pool ({ p with leases, free }.record (.rollback id)), ?_,
      ⟨_, rfl, hwaiting, harmed, Nat.le_trans hfree hle⟩, rfl, rfl⟩
    simp only [Source.finish, Pool.rollback, heq]

end Spare

/-! ## What has been done since -/

/-- Two worlds in an earlier state, and what stood for each other then. -/
structure Base (H : Host) where
  pairing : Pairing
  left : World H
  right : World H

/-- Events that are alike. -/
inductive EventLike (N : Pairing) : Event → Event → Prop
  | begin {h h' : Handle} (hh : (h, h') ∈ N.handles) : EventLike N (.begin h) (.begin h')
  | commit {h h' : Handle} (hh : (h, h') ∈ N.handles) : EventLike N (.commit h) (.commit h')
  | rollback {h h' : Handle} (hh : (h, h') ∈ N.handles) : EventLike N (.rollback h) (.rollback h')

theorem EventLike.mono {N N' : Pairing} (hN : N ≤ N') {e e' : Event} (h : EventLike N e e') :
    EventLike N' e e' := by
  cases h with
  | begin hh => exact .begin (hN.2 hh)
  | commit hh => exact .commit (hN.2 hh)
  | rollback hh => exact .rollback (hN.2 hh)

theorem EventLike.ends {N : Pairing} {h h' : Handle} (t : Terminal) (hh : (h, h') ∈ N.handles) :
    EventLike N (endEvent t h) (endEvent t h') := by
  cases t with
  | commit => exact .commit hh
  | rollback => exact .rollback hh

/-- What has been written down since an earlier state, newest first, and the transactions that have
    been opened meanwhile; `next` is the number of the next one on the other side. -/
structure Written (B : Base H) (handles : List (Handle × Handle))
    (journal journal' : List (Entry H)) (next : Handle) (ws ws' : List (Entry H))
    (new : List (Handle × Handle)) : Prop where
  left : journal = ws ++ B.left.journal
  right : journal' = ws' ++ B.right.journal
  shown : ws.filterMap Entry.unnumbered? = ws'.filterMap Entry.unnumbered?
  requests : ws.countP Entry.isRequest = ws'.countP Entry.isRequest
  handles : handles = B.pairing.handles ++ new
  opened : new.map Prod.fst = (openedIn ws).reverse
  fresh : ∀ p ∈ new, nextHandle B.left.source ≤ p.1
  numbered : new.map Prod.snd = List.range' (nextHandle B.right.source) new.length
  next : next = nextHandle B.right.source + new.length

/-- What has been done to two worlds since an earlier state, by somebody who keeps to a realm. -/
structure Since (R : Realm H) (B : Base H) (N : Pairing) (w v : World H) : Prop where
  now : w.now = B.left.now
  goesOn : B.pairing.units ⊆ N.units
  made : ∀ p ∈ N.units,
    p ∈ B.pairing.units ∨ (B.left.units.length ≤ p.1 ∧ B.right.units.length ≤ p.2)
  longer : B.left.units.length ≤ w.units.length ∧ B.right.units.length ≤ v.units.length
  later : nextHandle B.left.source ≤ nextHandle w.source
  written : ∃ ws ws' new,
    Written B N.handles w.journal v.journal (nextHandle v.source) ws ws' new
  events : ∃ es es', w.source.events = B.left.source.events ++ es ∧
    v.source.events = B.right.source.events ++ es' ∧ List.Forall₂ (EventLike N) es es'
  background : ∃ hs hs' : List Handle, w.background = B.left.background ++ hs.map .fresh ∧
    v.background = B.right.background ++ hs'.map .fresh ∧
      List.Forall₂ (fun h h' => (h, h') ∈ N.handles) hs hs'
  /-- The application has been acted on as the realm allows. -/
  actions : ∃ actions : List H.Action, (∀ action ∈ actions, R.actions action) ∧
    w.host = actions.foldl (fun s action => (H.perform action s).2) B.left.host
  /-- Nothing else has been touched. -/
  units : ∀ u, u ∉ N.units.map Prod.fst → w.unit u = B.left.unit u
  names : ∀ name, ¬ R.names name → w.names.lookup name = B.left.names.lookup name

/-- Two worlds agree about a realm at the same time, and the same has been done to them. -/
structure Alike (R : Realm H) (permits : Nat) (B : Base H) (N : Pairing) (w v : World H) :
    Prop where
  now : w.now = v.now
  agree : Agree R N permits w v
  since : Since R B N w v

section Start

variable {R : Realm H} {N : Pairing} {n : Nat} {w v : World H}

/-- Nothing has been done yet. -/
theorem Agree.alike (h : Agree R N n w v) (hnow : w.now = v.now) : Alike R n ⟨N, w, v⟩ N w v := by
  refine ⟨hnow, h, ?_⟩
  exact {
    now := rfl
    goesOn := fun _ hp => hp
    made := fun _ hp => .inl hp
    longer := ⟨Nat.le_refl _, Nat.le_refl _⟩
    later := Nat.le_refl _
    written := ⟨[], [], [], rfl, rfl, rfl, rfl, (List.append_nil _).symm, rfl,
      fun _ hp => (List.not_mem_nil hp).elim, rfl, rfl⟩
    events := ⟨[], [], (List.append_nil _).symm, (List.append_nil _).symm, .nil⟩
    background := ⟨[], [], (List.append_nil _).symm, (List.append_nil _).symm, .nil⟩
    actions := ⟨[], fun _ ha => (List.not_mem_nil ha).elim, rfl⟩
    units := fun _ _ => rfl
    names := fun _ _ => rfl }

end Start

/-! ## New numbers -/

section Pairs

variable {pairs : List (Nat × Nat)} {a b : Nat}

theorem mem_concat_pair {p : Nat × Nat} (hp : p ∈ pairs ++ [(a, b)]) : p ∈ pairs ∨ p = (a, b) :=
  (List.mem_append.mp hp).imp_right List.mem_singleton.mp

/-- Numbers that have not been handed out yet are put together. -/
theorem unique_concat (h : ∀ p ∈ pairs, ∀ q ∈ pairs, p.1 = q.1 ↔ p.2 = q.2)
    (hbound : ∀ p ∈ pairs, p.1 < a ∧ p.2 < b) :
    ∀ p ∈ pairs ++ [(a, b)], ∀ q ∈ pairs ++ [(a, b)], p.1 = q.1 ↔ p.2 = q.2 := by
  intro p hp q hq
  obtain hp | rfl := mem_concat_pair hp <;> obtain hq | rfl := mem_concat_pair hq
  · exact h p hp q hq
  · obtain ⟨hold, hold'⟩ := hbound p hp
    exact iff_of_false (Nat.ne_of_lt hold) (Nat.ne_of_lt hold')
  · obtain ⟨hold, hold'⟩ := hbound q hq
    exact iff_of_false (Nat.ne_of_gt hold) (Nat.ne_of_gt hold')
  · exact iff_of_true rfl rfl

theorem bound_concat (hbound : ∀ p ∈ pairs, p.1 < a ∧ p.2 < b) :
    ∀ p ∈ pairs ++ [(a, b)], p.1 < a + 1 ∧ p.2 < b + 1 := by
  intro p hp
  obtain hp | rfl := mem_concat_pair hp
  · obtain ⟨hold, hold'⟩ := hbound p hp
    exact ⟨Nat.lt_succ_of_lt hold, Nat.lt_succ_of_lt hold'⟩
  · exact ⟨Nat.lt_succ_self _, Nat.lt_succ_self _⟩

end Pairs

/-! ## Single changes -/

section Changes

variable {R : Realm H} {n : Nat} {B : Base H} {N : Pairing} {w v : World H} {u u' : UnitId}
  {h h' : Handle}

theorem requests_record {e : Entry H} (he : e.isRequest = false) :
    (w.record e).requests = w.requests :=
  List.countP_cons_of_neg (by rw [he]; exact Bool.false_ne_true)

/-- Something is written down. -/
theorem Alike.record (ha : Alike R n B N w v) {e e' : Entry H}
    (hshown : e.unnumbered? = e'.unnumbered?) (hleft : e.isRequest = false)
    (hright : e'.isRequest = false) (hopened : e.opened? = none) :
    Alike R n B N (w.record e) (v.record e') := by
  obtain ⟨hnow, hagree, hsince⟩ := ha
  refine ⟨hnow, { hagree with spare := ?_, fewer := ?_ }, { hsince with written := ?_ }⟩
  · rw [requests_record hleft, requests_record hright]
    exact hagree.spare
  · rw [requests_record hleft, requests_record hright]
    exact hagree.fewer
  · obtain ⟨ws, ws', new, hw⟩ := hsince.written
    refine ⟨e :: ws, e' :: ws', new, { hw with
      left := congrArg (e :: ·) hw.left
      right := congrArg (e' :: ·) hw.right
      shown := ?_, requests := ?_, opened := ?_ }⟩
    · rw [List.filterMap_cons, List.filterMap_cons, hshown, hw.shown]
    · rw [List.countP_cons_of_neg (by rw [hleft]; exact Bool.false_ne_true),
        List.countP_cons_of_neg (by rw [hright]; exact Bool.false_ne_true), hw.requests]
    · rw [hw.opened, openedIn, openedIn, List.filterMap_cons, hopened]

/-- The same is written down on either side. -/
theorem Alike.note (ha : Alike R n B N w v) (e : Entry H) (hmark : e.mark? = none) :
    Alike R n B N (w.record e) (v.record e) := by
  have hquiet : e.isRequest = false ∧ e.opened? = none := by
    cases e with
    | mark m => cases hmark
    | _ => exact ⟨rfl, rfl⟩
  exact ha.record rfl hquiet.1 hquiet.1 hquiet.2

/-- A mark is made on either side; marks are not shown. -/
theorem Alike.mark (ha : Alike R n B N w v) (m m' : Mark H)
    (hm : (Entry.mark m).isRequest = false) (hm' : (Entry.mark m').isRequest = false)
    (ho : (Entry.mark m).opened? = none) : Alike R n B N (w.mark m) (v.mark m') :=
  ha.record rfl hm hm' ho

theorem length_onUnit {f : UnitState H → UnitState H} (hu : u < w.units.length) :
    (w.onUnit u f).units.length = w.units.length := by
  show (List.modify _ u f).length = _
  rw [List.length_modify, List.length_append, List.length_replicate,
    Nat.sub_eq_zero_of_le (Nat.succ_le_of_lt hu), Nat.add_zero]

/-- Two units that stand for each other change. -/
theorem Alike.onUnit (ha : Alike R n B N w v) (hu : (u, u') ∈ N.units)
    {f f' : UnitState H → UnitState H} (hlike : UnitLike R N (f (w.unit u)) (f' (v.unit u'))) :
    Alike R n B N (w.onUnit u f) (v.onUnit u' f') := by
  obtain ⟨hnow, hagree, hsince⟩ := ha
  obtain ⟨hleft, hright⟩ := hagree.made _ hu
  refine ⟨hnow, { hagree with made := ?_, units := ?_ },
    { hsince with longer := ?_, units := ?_ }⟩
  · rw [length_onUnit hleft, length_onUnit hright]
    exact hagree.made
  · intro p hp
    have hsame : p.1 = u ↔ p.2 = u' := hagree.unique.units p hp _ hu
    rw [World.unit_onUnit, World.unit_onUnit]
    by_cases heq : p.1 = u
    · rw [if_pos heq, if_pos (hsame.mp heq), heq, hsame.mp heq]
      exact hlike
    · rw [if_neg heq, if_neg fun he => heq (hsame.mpr he)]
      exact hagree.units p hp
  · rw [length_onUnit hleft, length_onUnit hright]
    exact hsince.longer
  · intro x hx
    rw [World.unit_onUnit, if_neg, hsince.units x hx]
    rintro rfl
    exact hx (List.mem_map_of_mem hu)

theorem unit_addUnit (w : World H) (x : UnitId) : w.addUnit.2.unit x = w.unit x := by
  show (w.units ++ [UnitState.idle])[x]?.getD .idle = w.units[x]?.getD .idle
  rcases Nat.lt_trichotomy x w.units.length with hx | rfl | hx
  · rw [List.getElem?_append_left hx]
  · simp
  · rw [List.getElem?_eq_none (by simp; omega), List.getElem?_eq_none (by omega)]

/-- Units that have not been made yet are idle. -/
theorem unit_of_length_le (hx : w.units.length ≤ u) : w.unit u = .idle := by
  rw [World.unit, List.getElem?_eq_none hx]
  rfl

theorem UnitLike.idle (R : Realm H) (N : Pairing) : UnitLike R N (H := H) .idle .idle :=
  ⟨rfl, .none⟩

theorem ContextLike.mono {N' : Pairing} (hN : N ≤ N') {c c' : Context (List (Step H))}
    (hc : ContextLike R N c c') : ContextLike R N' c c' := { hc with handle := hN.2 hc.handle }

theorem optionRel_mono {α β : Type} {r r' : α → β → Prop} (hr : ∀ a b, r a b → r' a b)
    {x : Option α} {y : Option β} (hxy : Option.Rel r x y) : Option.Rel r' x y := by
  cases hxy with
  | some hab => exact .some (hr _ _ hab)
  | none => exact .none

theorem UnitLike.mono {N' : Pairing} (hN : N ≤ N') {s s' : UnitState H} (hs : UnitLike R N s s') :
    UnitLike R N' s s' := ⟨hs.cancelled, optionRel_mono (fun _ _ hc => hc.mono hN) hs.context⟩

/-- A fresh unit on either side. -/
theorem Alike.addUnit (ha : Alike R n B N w v) :
    Alike R n B (N.addUnit w.units.length v.units.length) w.addUnit.2 v.addUnit.2 := by
  obtain ⟨hnow, hagree, hsince⟩ := ha
  have hle := N.le_addUnit w.units.length v.units.length
  have hlen : w.addUnit.2.units.length = w.units.length + 1 := List.length_append
  have hlen' : v.addUnit.2.units.length = v.units.length + 1 := List.length_append
  refine ⟨hnow, { hagree with
      unique := ⟨unique_concat hagree.unique.units hagree.made, hagree.unique.handles⟩
      made := ?_, units := ?_, names := ?_ },
    { hsince with goesOn := ?_, made := ?_, longer := ?_, events := ?_, units := ?_ }⟩
  · rw [hlen, hlen']
    exact bound_concat hagree.made
  · intro p hp
    rw [unit_addUnit, unit_addUnit]
    obtain hp | rfl := mem_concat_pair hp
    · exact (hagree.units p hp).mono hle
    · rw [unit_of_length_le (Nat.le_refl _), unit_of_length_le (Nat.le_refl _)]
      exact .idle R _
  · intro name hname
    exact optionRel_mono (fun _ _ hp => hle.1 hp) (hagree.names name hname)
  · exact fun p hp => hle.1 (hsince.goesOn hp)
  · intro p hp
    obtain hp | rfl := mem_concat_pair hp
    · exact hsince.made p hp
    · exact .inr hsince.longer
  · rw [hlen, hlen']
    exact ⟨Nat.le_succ_of_le hsince.longer.1, Nat.le_succ_of_le hsince.longer.2⟩
  · obtain ⟨es, es', hes, hes', hlike⟩ := hsince.events
    exact ⟨es, es', hes, hes', hlike.imp fun _ _ he => he.mono hle⟩
  · intro x hx
    rw [unit_addUnit]
    refine hsince.units x fun hin => hx ?_
    obtain ⟨p, hp, rfl⟩ := List.mem_map.mp hin
    exact List.mem_map_of_mem (hle.1 hp)

/-- A unit gets a name on either side. -/
theorem Alike.addName (ha : Alike R n B N w v) {name : String} (hname : R.names name)
    (hu : (u, u') ∈ N.units) :
    Alike R n B N { w with names := w.names ++ [(name, u)] }
      { v with names := v.names ++ [(name, u')] } := by
  obtain ⟨hnow, hagree, hsince⟩ := ha
  have hmine : ∀ other x y, (x, y) ∈ N.units →
      Option.Rel (fun u u' => (u, u') ∈ N.units) ([(name, x)].lookup other)
        ([(name, y)].lookup other) := by
    intro other x y hxy
    simp only [List.lookup_cons, List.lookup_nil]
    cases other == name with
    | true => exact .some hxy
    | false => exact .none
  refine ⟨hnow, { hagree with names := ?_ }, { hsince with names := ?_ }⟩
  · intro other hother
    have hfound := hagree.names other hother
    rw [List.lookup_append, List.lookup_append]
    revert hfound
    cases w.names.lookup other <;> cases v.names.lookup other <;> intro hfound
    case none.none => exact hmine other u u' hu
    case some.some x y =>
      cases hfound with
      | some hxy => exact .some hxy
    all_goals cases hfound
  · intro other hother
    have hne : (other == name) = false := by
      rw [beq_eq_false_iff_ne]
      rintro rfl
      exact hother hname
    show (w.names ++ [(name, u)]).lookup other = _
    rw [List.lookup_append, List.lookup_cons, hne, List.lookup_nil, Option.or_none,
      hsince.names other hother]

/-- The unit with a name, on either side. -/
theorem Alike.named (ha : Alike R n B N w v) {name : String} (hname : R.names name) :
    ∃ N', N ≤ N' ∧ Alike R n B N' (w.named name).2 (v.named name).2 ∧
      ((w.named name).1, (v.named name).1) ∈ N'.units := by
  have hfound := ha.agree.names name hname
  unfold World.named
  cases hleft : w.names.lookup name with
  | some x =>
    cases hright : v.names.lookup name with
    | some y =>
      rw [hleft, hright] at hfound
      cases hfound with
      | some hxy => exact ⟨N, N.le_refl, ha, hxy⟩
    | none =>
      rw [hleft, hright] at hfound
      cases hfound
  | none =>
    cases hright : v.names.lookup name with
    | some y =>
      rw [hleft, hright] at hfound
      cases hfound
    | none =>
      have hin : (w.units.length, v.units.length) ∈
          (N.addUnit w.units.length v.units.length).units :=
        List.mem_append_right _ (List.mem_singleton_self _)
      exact ⟨_, N.le_addUnit _ _, ha.addUnit.addName hname hin, hin⟩

/-- The source changes, and begins nothing. -/
theorem Alike.withSource (ha : Alike R n B N w v) {s s' : Source}
    (hspare : HasSpare (n - w.requests) s ∧ HasSpare (n - v.requests) s')
    (hleft : nextHandle s = nextHandle w.source) (hright : nextHandle s' = nextHandle v.source)
    {es es' : List Event} (hes : s.events = w.source.events ++ es)
    (hes' : s'.events = v.source.events ++ es') (hlike : List.Forall₂ (EventLike N) es es') :
    Alike R n B N { w with source := s } { v with source := s' } := by
  obtain ⟨hnow, hagree, hsince⟩ := ha
  refine ⟨hnow, { hagree with begun := ?_, spare := hspare },
    { hsince with later := ?_, written := ?_, events := ?_ }⟩
  · intro p hp
    rw [hleft, hright]
    exact hagree.begun p hp
  · rw [hleft]
    exact hsince.later
  · rw [hright]
    exact hsince.written
  · obtain ⟨old, old', hold, hold', hboth⟩ := hsince.events
    refine ⟨old ++ es, old' ++ es', ?_, ?_, List.rel_append hboth hlike⟩
    · rw [hes, hold, List.append_assoc]
    · rw [hes', hold', List.append_assoc]

/-- Transactions are let go, whichever they are. -/
theorem Alike.letGo (ha : Alike R n B N w v) (ids ids' : List Handle) :
    Alike R n B N (w.letGo ids) (v.letGo ids') := by
  obtain ⟨hspare, hevents, hnext⟩ := ha.agree.spare.1.letGoAll ids
  obtain ⟨hspare', hevents', hnext'⟩ := ha.agree.spare.2.letGoAll ids'
  exact ha.withSource ⟨hspare, hspare'⟩ hnext hnext' (hevents.trans (List.append_nil _).symm)
    (hevents'.trans (List.append_nil _).symm) .nil

/-- A transaction is held by one more. -/
theorem Alike.retain (ha : Alike R n B N w v) (h h' : Handle) :
    Alike R n B N { w with source := w.source.retain h }
      { v with source := v.source.retain h' } := by
  obtain ⟨hspare, hevents⟩ := ha.agree.spare.1.retain h
  obtain ⟨hspare', hevents'⟩ := ha.agree.spare.2.retain h'
  exact ha.withSource ⟨hspare, hspare'⟩ (nextHandle_retain _ _) (nextHandle_retain _ _)
    (hevents.trans (List.append_nil _).symm) (hevents'.trans (List.append_nil _).symm) .nil

theorem recordCall_of_spare {k : Nat} (hs : HasSpare k w.source) (call : Transaction.Call) :
    w.recordCall call = w := by
  obtain ⟨p, hp, -⟩ := hs
  rw [World.recordCall, hp]
  rfl

theorem startFinish_of_spare {k : Nat} {t : Terminal} {ended : Transaction.Ended} {s : Source}
    (hs : HasSpare k w.source) (hfinish : w.source.finish t h = (ended, s)) :
    w.startFinish t h = (ended, { w.mark (.ending t h) with source := s }) := by
  unfold World.startFinish
  dsimp only
  rw [recordCall_of_spare (w := w.mark _) hs]
  show ((w.source.finish t h).1,
    { w.mark (.ending t h) with source := (w.source.finish t h).2 }) = _
  rw [hfinish]

/-- A call that ends a transaction is answered at once, and it goes well. -/
theorem Alike.startFinish (ha : Alike R n B N w v) (t : Terminal) (hh : (h, h') ∈ N.handles) :
    (w.startFinish t h).1 = ⟨0, none⟩ ∧ (v.startFinish t h').1 = ⟨0, none⟩ ∧
      Alike R n B N (w.startFinish t h).2 (v.startFinish t h').2 := by
  have hmarked := ha.mark (.ending t h) (.ending t h') rfl rfl rfl
  obtain ⟨s, hs, hspare, hnext, hevents⟩ := hmarked.agree.spare.1.finish t h
  obtain ⟨s', hs', hspare', hnext', hevents'⟩ := hmarked.agree.spare.2.finish t h'
  rw [startFinish_of_spare (w := w) ha.agree.spare.1 hs,
    startFinish_of_spare (w := v) ha.agree.spare.2 hs']
  exact ⟨rfl, rfl, hmarked.withSource ⟨hspare, hspare'⟩ hnext hnext' hevents hevents'
    (.cons (.ends t hh) .nil)⟩

/-- A rollback is put off to the background. -/
theorem Alike.cleanUp (ha : Alike R n B N w v) (hh : (h, h') ∈ N.handles) :
    Alike R n B N { w with background := w.background ++ [.fresh h] }
      { v with background := v.background ++ [.fresh h'] } := by
  obtain ⟨hnow, hagree, hsince⟩ := ha
  refine ⟨hnow, { hagree with }, { hsince with background := ?_ }⟩
  obtain ⟨hs, hs', hleft, hright, hlike⟩ := hsince.background
  refine ⟨hs ++ [h], hs' ++ [h'], ?_, ?_, List.rel_append hlike (.cons hh .nil)⟩
  · show w.background ++ [.fresh h] = _
    rw [hleft, List.map_append, List.append_assoc]
    rfl
  · show v.background ++ [.fresh h'] = _
    rw [hright, List.map_append, List.append_assoc]
    rfl

/-- The application is acted on. -/
theorem Alike.perform (hR : R.IsClosed) (ha : Alike R n B N w v) {action : H.Action}
    (hact : R.actions action) :
    (H.perform action w.host).1 = (H.perform action v.host).1 ∧
      Alike R n B N { w with host := (H.perform action w.host).2 }
        { v with host := (H.perform action v.host).2 } := by
  obtain ⟨hnow, hagree, hsince⟩ := ha
  refine ⟨hR.answers action _ _ hact hagree.host, hnow,
    { hagree with host := hR.keeps action _ _ hact hagree.host },
    { hsince with actions := ?_ }⟩
  obtain ⟨actions, hactions, hhost⟩ := hsince.actions
  refine ⟨actions ++ [action], ?_, ?_⟩
  · intro a hin
    rcases List.mem_append.mp hin with hin | hin
    · exact hactions a hin
    · rw [List.mem_singleton.mp hin]
      exact hact
  · show (H.perform action w.host).2 = _
    rw [List.foldl_append, ← hhost]
    rfl

theorem requests_ask (w : World H) (u : UnitId) :
    (w.mark (.requested u)).requests = w.requests + 1 :=
  List.countP_cons_of_pos rfl

/-- What is written down when an outermost scope has asked for a transaction and received it. -/
def World.askAndOpen (w : World H) (u : UnitId) : World H :=
  (w.mark (.requested u)).mark (.opened u (nextHandle w.source))

theorem requests_askAndOpen (w : World H) (u : UnitId) :
    (w.askAndOpen u).requests = w.requests + 1 :=
  (requests_record rfl).trans (requests_ask w u)

theorem Written.askAndOpen {ws ws' : List (Entry H)} {new : List (Handle × Handle)}
    (hw : Written B N.handles w.journal v.journal (nextHandle v.source) ws ws' new)
    (hlater : nextHandle B.left.source ≤ nextHandle w.source) (u u' : UnitId) :
    Written B (N.addHandle (nextHandle w.source) (nextHandle v.source)).handles
      (w.askAndOpen u).journal (v.askAndOpen u').journal (nextHandle v.source + 1)
      (.mark (.opened u (nextHandle w.source)) :: .mark (.requested u) :: ws)
      (.mark (.opened u' (nextHandle v.source)) :: .mark (.requested u') :: ws')
      (new ++ [(nextHandle w.source, nextHandle v.source)]) where
  left := congrArg (_ :: _ :: ·) hw.left
  right := congrArg (_ :: _ :: ·) hw.right
  shown := hw.shown
  requests := by
    rw [List.countP_cons_of_neg Bool.false_ne_true, List.countP_cons_of_pos rfl,
      List.countP_cons_of_neg Bool.false_ne_true, List.countP_cons_of_pos rfl, hw.requests]
  handles := by
    show N.handles ++ [_] = _
    rw [hw.handles, List.append_assoc]
  opened := by
    rw [List.map_append, hw.opened]
    exact List.reverse_cons.symm
  fresh := fun p hp => by
    obtain hp | rfl := mem_concat_pair hp
    · exact hw.fresh p hp
    · exact hlater
  numbered := by
    rw [List.map_append, hw.numbered, List.length_append, List.length_singleton, hw.next,
      List.map_singleton, List.range'_1_concat]
  next := by
    rw [hw.next, List.length_append]
    rfl

/-- An outermost scope asks for a transaction while there are permits, and has it at once. -/
theorem Alike.begin (ha : Alike R n B N w v) (hroom : w.requests < n) (u u' : UnitId) :
    ∃ s s', w.source.begin = (.opened (nextHandle w.source), s) ∧
      v.source.begin = (.opened (nextHandle v.source), s') ∧
      Alike R n B (N.addHandle (nextHandle w.source) (nextHandle v.source))
        { w.askAndOpen u with source := s } { v.askAndOpen u' with source := s' } := by
  obtain ⟨hnow, hagree, hsince⟩ := ha
  have hfewer := hagree.fewer
  obtain ⟨s, hs, hspare, hnext, hevents⟩ :=
    HasSpare.begin (k := n - (w.requests + 1)) (hagree.spare.1.mono (by omega))
  obtain ⟨s', hs', hspare', hnext', hevents'⟩ :=
    HasSpare.begin (k := n - (v.requests + 1)) (hagree.spare.2.mono (by omega))
  have hle := N.le_addHandle (nextHandle w.source) (nextHandle v.source)
  have hin : (nextHandle w.source, nextHandle v.source) ∈
      (N.addHandle (nextHandle w.source) (nextHandle v.source)).handles :=
    List.mem_append_right _ (List.mem_singleton_self _)
  have hmore := requests_askAndOpen w u
  have hmore' := requests_askAndOpen v u'
  refine ⟨s, s', hs, hs', hnow, { hagree with
      unique := ⟨hagree.unique.units, unique_concat hagree.unique.handles hagree.begun⟩
      begun := ?_, units := fun p hp => (hagree.units p hp).mono hle
      spare := ⟨hmore ▸ hspare, hmore' ▸ hspare'⟩
      fewer := Nat.le_trans (Nat.le_of_eq hmore') (Nat.le_trans (Nat.succ_le_succ hfewer)
        (Nat.le_of_eq hmore.symm)) },
    { hsince with later := ?_, written := ?_, events := ?_, background := ?_ }⟩
  · rw [hnext, hnext']
    exact bound_concat hagree.begun
  · rw [hnext]
    exact Nat.le_succ_of_le hsince.later
  · obtain ⟨ws, ws', new, hw⟩ := hsince.written
    rw [hnext']
    exact ⟨_, _, _, hw.askAndOpen hsince.later u u'⟩
  · obtain ⟨es, es', hes, hes', hlike⟩ := hsince.events
    refine ⟨es ++ [.begin (nextHandle w.source)], es' ++ [.begin (nextHandle v.source)], ?_, ?_,
      List.rel_append (hlike.imp fun _ _ he => he.mono hle) (.cons (.begin hin) .nil)⟩
    · rw [hevents, hes, List.append_assoc]
    · rw [hevents', hes', List.append_assoc]
  · obtain ⟨hs, hs', hleft, hright, hlike⟩ := hsince.background
    exact ⟨hs, hs', hleft, hright, hlike.imp fun _ _ hh => hle.2 hh⟩

end Changes

/-! ## What scopes do -/

section Contexts

variable {R : Realm H} {N : Pairing} {c c' : Context (List (Step H))}

theorem ContextLike.start {h h' : Handle} (hh : (h, h') ∈ N.handles) :
    ContextLike R N (H := H) (.start h) (.start h') :=
  ⟨rfl, rfl, rfl, hh, fun _ he => (List.not_mem_nil he).elim⟩

theorem ContextLike.enter (h : ContextLike R N c c') : ContextLike R N c.enter c'.enter :=
  { h with depth := congrArg (· + 1) h.depth }

theorem ContextLike.exit (h : ContextLike R N c c') : ContextLike R N c.exit c'.exit :=
  { h with depth := congrArg (· - 1) h.depth }

theorem ContextLike.markRolledBack (h : ContextLike R N c c') :
    ContextLike R N c.markRolledBack c'.markRolledBack :=
  { h with
    effects := rfl
    rolledBack := rfl
    kept := fun _ he => (List.not_mem_nil he).elim }

theorem ContextLike.defer (h : ContextLike R N c c') {effect : List (Step H)}
    (he : Step.KeepsToAll R True effect) :
    ContextLike R N (c.defer effect) (c'.defer effect) := by
  unfold Context.defer
  by_cases hback : c.rolledBack = true
  · rw [if_pos hback, if_pos (h.rolledBack ▸ hback)]
    exact h
  · rw [if_neg hback, if_neg (h.rolledBack ▸ hback)]
    refine { h with effects := congrArg (· ++ [effect]) h.effects, kept := ?_ }
    intro other hother
    rcases List.mem_append.mp hother with hother | hother
    · exact h.kept other hother
    · rw [List.mem_singleton.mp hother]
      exact he

end Contexts

section Scopes

variable {R : Realm H} {n : Nat} {B : Base H} {N : Pairing} {w v : World H} {u u' : UnitId}
  {h h' : Handle}

theorem Alike.isCancelled (ha : Alike R n B N w v) (hu : (u, u') ∈ N.units) :
    w.isCancelled u = v.isCancelled u' := (ha.agree.units _ hu).cancelled

theorem Alike.context? (ha : Alike R n B N w v) (hu : (u, u') ∈ N.units) :
    Option.Rel (ContextLike R N) (w.context? u) (v.context? u') := (ha.agree.units _ hu).context

theorem Alike.setContext (ha : Alike R n B N w v) (hu : (u, u') ∈ N.units)
    {x x' : Option (Context (List (Step H)))} (hx : Option.Rel (ContextLike R N) x x') :
    Alike R n B N (w.setContext u x) (v.setContext u' x') :=
  ha.onUnit hu ⟨ha.isCancelled hu, hx⟩

theorem Alike.cancel (ha : Alike R n B N w v) (hu : (u, u') ∈ N.units) :
    Alike R n B N (w.cancel u) (v.cancel u') :=
  (ha.mark (.cancelled u) (.cancelled u') rfl rfl rfl).onUnit hu ⟨rfl, ha.context? hu⟩

theorem Alike.enterNested (ha : Alike R n B N w v) (hu : (u, u') ∈ N.units)
    {c c' : Context (List (Step H))} (hc : ContextLike R N c c') :
    Alike R n B N (w.enterNested u c) (v.enterNested u' c') :=
  (ha.mark (.nestedBegun u c.handle) (.nestedBegun u' c'.handle) rfl rfl rfl).setContext hu
    (.some hc.enter)

theorem Alike.leaveNested (ha : Alike R n B N w v) (hu : (u, u') ∈ N.units) (h h' : Handle)
    (outcome : Option (Outcome H)) :
    Alike R n B N (w.leaveNested u h outcome) (v.leaveNested u' h' outcome) := by
  have hmarked := ha.mark (.nestedEnded u h outcome) (.nestedEnded u' h' outcome) rfl rfl rfl
  have hfound := hmarked.context? hu
  unfold World.leaveNested
  dsimp only
  revert hfound
  cases (w.mark (.nestedEnded u h outcome)).context? u <;>
    cases (v.mark (.nestedEnded u' h' outcome)).context? u' <;> intro hfound
  case none.none => exact hmarked
  case some.some c c' =>
    cases hfound with
    | some hc =>
      apply hmarked.setContext hu
      cases endedWell outcome with
      | true => exact .some hc.exit
      | false => exact .some hc.markRolledBack.exit
  all_goals cases hfound

theorem Alike.deferEffect (ha : Alike R n B N w v) (hu : (u, u') ∈ N.units)
    {c c' : Context (List (Step H))} (hc : ContextLike R N c c') {effect : List (Step H)}
    (he : Step.KeepsToAll R True effect) :
    Alike R n B N (w.deferEffect u c effect) (v.deferEffect u' c' effect) :=
  (ha.mark (.deferred u c.handle effect) (.deferred u' c'.handle effect) rfl rfl rfl).setContext hu
    (.some (hc.defer he))

theorem Alike.endWork (ha : Alike R n B N w v) (hu : (u, u') ∈ N.units) (h h' : Handle)
    (outcome : Outcome H) :
    Alike R n B N (w.endWork u h outcome) (v.endWork u' h' outcome) :=
  (ha.mark (.workEnded u h outcome (w.isCancelled u))
    (.workEnded u' h' outcome (v.isCancelled u')) rfl rfl rfl).setContext hu .none

theorem Alike.interrupt (ha : Alike R n B N w v) (hu : (u, u') ∈ N.units) :
    Alike R n B N (w.interrupt u h) (v.interrupt u' h') := by
  have hmarked := ha.mark (.interrupted u h) (.interrupted u' h') rfl rfl rfl
  have hfound := hmarked.context? hu
  have hruns := ha.agree.runtime
  unfold World.interrupt
  dsimp only
  revert hfound
  cases (w.mark (.interrupted u h)).context? u <;>
    cases (v.mark (.interrupted u' h')).context? u' <;> intro hfound
  case none.none => exact hmarked
  case some.some c c' =>
    cases hfound with
    | some hc =>
      have hset := hmarked.setContext hu (.none : Option.Rel (ContextLike R N) none none)
      dsimp only
      rw [if_pos hset.agree.runtime.1, if_pos hset.agree.runtime.2]
      exact (hset.note (.alert .scopeInterrupted) rfl).cleanUp hc.handle
  all_goals cases hfound

theorem request_of_spare {k : Nat} {begun : Transaction.Begun} {s : Source}
    (hs : HasSpare k w.source) (hbegin : w.source.begin = (begun, s)) :
    w.request u = (begun, { w.mark (.requested u) with source := s }) := by
  unfold World.request
  dsimp only
  rw [recordCall_of_spare (w := w.mark _) hs]
  show (w.source.begin.1, { w.mark (.requested u) with source := w.source.begin.2 }) = _
  rw [hbegin]

theorem openContext_of_none (hnone : w.context? u = none) :
    w.openContext u h = World.setContext u (some (.start h))
      { w.mark (.opened u h) with source := w.source.retain h } := by
  have hmarked : (w.mark (.opened u h)).context? u = none := hnone
  unfold World.openContext
  dsimp only
  rw [hmarked]
  rfl

/-- An outermost scope has its transaction, and its unit has had none. -/
theorem Alike.openContext (ha : Alike R n B N w v) (hroom : w.requests < n)
    (hu : (u, u') ∈ N.units) (hleft : w.context? u = none) (hright : v.context? u' = none) :
    (w.request u).1 = .opened (nextHandle w.source) ∧
      (v.request u').1 = .opened (nextHandle v.source) ∧
      ∃ N', N ≤ N' ∧ (nextHandle w.source, nextHandle v.source) ∈ N'.handles ∧
        Alike R n B N' ((w.request u).2.openContext u (nextHandle w.source))
          ((v.request u').2.openContext u' (nextHandle v.source)) := by
  have hle := N.le_addHandle (nextHandle w.source) (nextHandle v.source)
  have hin : (nextHandle w.source, nextHandle v.source) ∈
      (N.addHandle (nextHandle w.source) (nextHandle v.source)).handles :=
    List.mem_append_right _ (List.mem_singleton_self _)
  obtain ⟨s, s', hs, hs', hbegun⟩ := ha.begin hroom u u'
  rw [request_of_spare (u := u) ha.agree.spare.1 hs,
    request_of_spare (u := u') ha.agree.spare.2 hs']
  refine ⟨rfl, rfl, _, hle, hin, ?_⟩
  rw [openContext_of_none (w := { w.mark (.requested u) with source := s }) hleft,
    openContext_of_none (w := { v.mark (.requested u') with source := s' }) hright]
  exact (hbegun.retain (nextHandle w.source) (nextHandle v.source)).setContext (hle.1 hu)
    (.some (.start hin))

end Scopes

end BootEngine.Work
