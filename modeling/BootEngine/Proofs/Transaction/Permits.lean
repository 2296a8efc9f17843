import Mathlib.Data.List.Nodup
import Mathlib.Data.Multiset.AddSub
import Mathlib.Logic.Relation
import BootEngine.Transaction.Direct

/-!
# Permits of the pooled source

A pool may be used by anybody and in any order. Its permits neither get lost nor multiply: each is
free, or out with a transaction, or handed to somebody in line who has not come for it yet. The
permit of a transaction is out exactly while somebody holds the transaction and it has not been
ended since it began; once it has come back, it stays back.

Contents:
* `Pool.out`, `Pool.permits`, `Pool.line`: the permits that are out, all permits, and who waits.
* `Pool.begun`, `Pool.eventsOf`, `Pool.isOpen`: what the events tell.
* `Pool.Use`, `Pool.Use.cases`: what can be done to a pool, and what this comes to.
* `Pool.Kept`, `Pool.Use.kept`: what is kept, and every use keeps it.
* `Pool.Uses.isOut`: a permit that has come back stays back.
* `Direct.call_uses`: direct calls are uses.
-/

namespace BootEngine.Transaction

/-- The transaction that an event is about. -/
def Event.id : Event → Handle
  | begin id => id
  | commit id => id
  | rollback id => id

/-- The transaction that begins with an event. -/
def Event.begun? : Event → Option Handle
  | begin id => some id
  | _ => none

/-- A lease whose permit has come back, if it is the one of a transaction. -/
def Lease.withoutPermit (h : Handle) (l : Lease) : Lease :=
  if l.id == h then { l with hasPermit := false } else l

namespace Pool

/-! ## What a pool shows -/

/-- The number of transactions whose permit is out. -/
def out (p : Pool) : Nat := p.leases.countP fun l => l.hasPermit

/-- The permit of a transaction is out. -/
def IsOut (h : Handle) (p : Pool) : Prop := ∃ l ∈ p.leases, l.id = h ∧ l.hasPermit = true

/-- The number of all permits: the free ones, those that are out, and those that have been handed to
    somebody who has not come for them yet. -/
def permits (p : Pool) : Nat := p.free + p.out + p.granted.length

/-- The tickets of all who wait, in line or with a permit that they have not come for yet. -/
def line (p : Pool) : Multiset Nat := (p.waiting ++ p.granted : List Nat)

/-- The numbers of the transactions that have begun, in the order of the events. -/
def begun (p : Pool) : List Handle := p.events.filterMap Event.begun?

/-- The events of a transaction, in order. -/
def eventsOf (h : Handle) (p : Pool) : List Event := p.events.filter fun e => e.id == h

/-- A transaction is open: somebody holds it, and it has not been ended since it began. -/
def isOpen (p : Pool) (l : Lease) : Bool :=
  l.holders != 0 && (p.eventsOf l.id).getLast? == some (.begin l.id)

/-- The number of open transactions. -/
def openCount (p : Pool) : Nat := p.leases.countP p.isOpen

/-- The numbers of the leases. -/
def ids (p : Pool) : List Handle := p.leases.map Lease.id

/-! ## Uses -/

/-- One use of a pool. Only who holds a transaction can let somebody else hold it, too. -/
inductive Use : Pool → Pool → Prop
  | begin {p : Pool} : Use p p.begin.2
  | claim {p : Pool} {ticket : Nat} (hg : p.isGranted ticket = true) : Use p (p.claim ticket).2
  | withdraw {p : Pool} (ticket : Nat) : Use p (p.withdraw ticket)
  | commit {p : Pool} (h : Handle) : Use p (p.commit h).2
  | rollback {p : Pool} (h : Handle) : Use p (p.rollback h)
  | retain {p : Pool} {h : Handle} (hh : ∃ l ∈ p.leases, l.id = h ∧ l.holders ≠ 0) :
      Use p (p.retain h)
  | letGo {p : Pool} (h : Handle) : Use p (p.letGo h)
  | armCommitFailure {p : Pool} : Use p p.armCommitFailure

/-- Uses one after another. -/
abbrev Uses : Pool → Pool → Prop := Relation.ReflTransGen Use

/-! ## Permits that come back -/

section Changes

variable (p : Pool) (h : Handle)

@[simp] theorem nextId_giveBack : p.giveBack.nextId = p.nextId := by
  unfold giveBack
  split <;> rfl

@[simp] theorem leases_giveBack : p.giveBack.leases = p.leases := by
  unfold giveBack
  split <;> rfl

@[simp] theorem events_giveBack : p.giveBack.events = p.events := by
  unfold giveBack
  split <;> rfl

/-- A permit that comes back does not change who waits. -/
@[simp] theorem line_giveBack : p.giveBack.line = p.line := by
  unfold giveBack
  split
  · rfl
  · next ticket rest hwaiting =>
    rw [line, line, hwaiting]
    refine Multiset.coe_eq_coe.mpr ?_
    show (rest ++ (p.granted ++ [ticket])).Perm (ticket :: (rest ++ p.granted))
    rw [← List.append_assoc]
    exact List.perm_append_singleton ticket _

theorem permits_giveBack : p.giveBack.permits = p.permits + 1 := by
  unfold giveBack
  split
  · show p.free + 1 + p.out + p.granted.length = p.free + p.out + p.granted.length + 1
    omega
  · next ticket rest _ =>
    show p.free + p.out + (p.granted ++ [ticket]).length = _
    rw [List.length_append]
    exact (Nat.add_assoc _ _ _).symm

@[simp] theorem nextId_release : (p.release h).nextId = p.nextId := by
  unfold release
  split
  · exact nextId_giveBack _
  · rfl

@[simp] theorem events_release : (p.release h).events = p.events := by
  unfold release
  split
  · exact events_giveBack _
  · rfl

@[simp] theorem line_release : (p.release h).line = p.line := by
  unfold release
  split
  · exact line_giveBack _
  · rfl

@[simp] theorem id_withoutPermit (l : Lease) : (l.withoutPermit h).id = l.id := by
  unfold Lease.withoutPermit
  split <;> rfl

theorem withoutPermit_of_not_out {l : Lease} (hl : (l.id == h && l.hasPermit) = false) :
    l.withoutPermit h = l := by
  unfold Lease.withoutPermit
  split
  · next hid =>
    rw [hid, Bool.true_and] at hl
    rw [← hl]
  · rfl

theorem leases_release : (p.release h).leases = p.leases.map (Lease.withoutPermit h) := by
  unfold release
  split
  · exact leases_giveBack _
  · next hnone =>
    rw [Bool.not_eq_true, List.any_eq_false] at hnone
    have hsame : ∀ l ∈ p.leases, l.withoutPermit h = l := fun l hl =>
      withoutPermit_of_not_out h (Bool.eq_false_iff.mpr (hnone l hl))
    exact ((List.map_congr_left hsame).trans (List.map_id _)).symm

/-- Among leases with different numbers, one at most loses its permit. -/
theorem countP_withoutPermit {leases : List Lease} (hn : (leases.map Lease.id).Nodup) :
    (leases.map (Lease.withoutPermit h)).countP (fun l => l.hasPermit) +
      (if leases.any fun l => l.id == h && l.hasPermit then 1 else 0) =
    leases.countP fun l => l.hasPermit := by
  induction leases with
  | nil => rfl
  | cons l rest ih =>
    rw [List.map_cons, List.nodup_cons] at hn
    rw [List.map_cons, List.countP_cons, List.countP_cons, List.any_cons, ← ih hn.2]
    by_cases hid : l.id = h
    · have hothers : (rest.any fun l => l.id == h && l.hasPermit) = false := by
        refine List.any_eq_false.mpr fun l' hl' => ?_
        have hne : l'.id ≠ h := fun he => hn.1 (he.trans hid.symm ▸ List.mem_map_of_mem hl')
        rw [beq_false_of_ne hne]
        exact Bool.false_ne_true
      rw [hothers, Lease.withoutPermit, if_pos (beq_iff_eq.mpr hid), beq_iff_eq.mpr hid]
      simp
    · rw [Lease.withoutPermit, if_neg (fun he => hid (beq_iff_eq.mp he)), beq_false_of_ne hid]
      simp
      omega

/-- A permit that comes back is there again. -/
theorem permits_release (hn : p.ids.Nodup) : (p.release h).permits = p.permits := by
  have hcount := countP_withoutPermit h hn
  unfold release
  split
  · next hany =>
    rw [if_pos hany] at hcount
    rw [permits_giveBack]
    show p.free + (p.leases.map (Lease.withoutPermit h)).countP _ + p.granted.length + 1 =
      p.free + p.leases.countP _ + p.granted.length
    omega
  · rfl

/-- A permit that was handed over is taken in hand. -/
theorem permits_take {ticket : Nat} (hin : ticket ∈ p.granted) :
    { p with granted := p.granted.erase ticket }.permits + 1 = p.permits := by
  show p.free + p.out + (p.granted.erase ticket).length + 1 = p.free + p.out + p.granted.length
  rw [Nat.add_assoc, List.length_erase_add_one hin]

theorem line_take {ticket : Nat} (hin : ticket ∈ p.granted) :
    p.line = ticket ::ₘ { p with granted := p.granted.erase ticket }.line :=
  Multiset.coe_eq_coe.mpr
    (((List.perm_cons_erase hin).append_left p.waiting).trans List.perm_middle)

end Changes

/-! ## What is kept -/

/-- Transactions are numbered from one on, in the order of their begins. -/
structure Numbered (p : Pool) : Prop where
  ids : p.ids = List.range' 1 p.ids.length
  next : p.nextId = p.ids.length + 1
  begun : p.begun = p.ids

/-- The permit of a transaction is out exactly while it is open. -/
def Truthful (p : Pool) : Prop := ∀ l ∈ p.leases, l.hasPermit = p.isOpen l

/-- What is kept by everybody who uses a pool of some size. -/
structure Kept (size : Nat) (p : Pool) : Prop where
  numbered : p.Numbered
  permits : p.permits = size
  truthful : p.Truthful

section Invariants

variable {p p' : Pool} {h : Handle}

theorem Numbered.nodup (hp : p.Numbered) : p.ids.Nodup := by
  rw [hp.ids]
  exact List.nodup_range'

theorem Numbered.lt_of_begun (hp : p.Numbered) (hh : h ∈ p.begun) : h < p.nextId := by
  rw [hp.begun, hp.ids, List.mem_range'_1] at hh
  rw [hp.next, Nat.add_comm]
  exact hh.2

theorem Numbered.begun_of_mem (hp : p.Numbered) {l : Lease} (hl : l ∈ p.leases) :
    l.id ∈ p.begun :=
  hp.begun ▸ List.mem_map_of_mem hl

/-- A lease is known by its number. -/
theorem Numbered.lease_unique (hp : p.Numbered) {l l' : Lease} (hl : l ∈ p.leases)
    (hl' : l' ∈ p.leases) (hid : l.id = l'.id) : l = l' :=
  List.inj_on_of_nodup_map hp.nodup hl hl' hid

/-- Nothing but begins matters to the numbers. -/
theorem Numbered.of_eq (hp : p.Numbered) (hids : p'.ids = p.ids) (hnext : p'.nextId = p.nextId)
    (hbegun : p'.begun = p.begun) : p'.Numbered where
  ids := by rw [hids]; exact hp.ids
  next := by rw [hids, hnext]; exact hp.next
  begun := by rw [hids, hbegun]; exact hp.begun

end Invariants

/-! ## Single changes -/

section Single

variable {p p' : Pool} {h : Handle} {change : Lease → Lease}

theorem ids_onLease (hc : ∀ l, (change l).id = l.id) : (p.onLease h change).ids = p.ids := by
  show (p.leases.map _).map Lease.id = p.leases.map Lease.id
  rw [List.map_map]
  refine List.map_congr_left fun l _ => ?_
  show (if l.id == h then change l else l).id = l.id
  split
  · exact hc l
  · rfl

theorem permits_onLease (hc : ∀ l, (change l).hasPermit = l.hasPermit) :
    (p.onLease h change).permits = p.permits := by
  have hout : (p.onLease h change).out = p.out := by
    show (p.leases.map _).countP _ = p.leases.countP _
    rw [List.countP_map]
    refine List.countP_congr fun l _ => ?_
    show (if l.id == h then change l else l).hasPermit = true ↔ _
    split
    · rw [hc l]
    · rfl
  rw [permits, hout]
  rfl

/-- Whether somebody holds a transaction still after one has let go of it. -/
theorem letGo_cases (h : Handle) (p : Pool) :
    p.letGo h = (p.onLease h fun l => { l with holders := l.holders - 1 }).release h ∧
      (∃ l ∈ p.leases, l.id = h ∧ l.holders - 1 = 0) ∨
    p.letGo h = (p.onLease h fun l => { l with holders := l.holders - 1 }) ∧
      ∀ l ∈ p.leases, l.id = h → l.holders - 1 ≠ 0 := by
  unfold letGo
  dsimp only
  split
  · next hany =>
    refine .inl ⟨rfl, ?_⟩
    simp only [onLease, List.any_map, List.any_eq_true, Function.comp] at hany
    obtain ⟨l, hl, hlast⟩ := hany
    refine ⟨l, hl, ?_⟩
    split at hlast
    · next hid => exact ⟨beq_iff_eq.mp hid, by simpa using (Bool.and_eq_true_iff.mp hlast).2⟩
    · next hid => exact absurd (Bool.and_eq_true_iff.mp hlast).1 hid
  · next hnone =>
    refine .inr ⟨rfl, fun l hl hid hlast => hnone ?_⟩
    simp only [onLease, List.any_map, List.any_eq_true, Function.comp]
    exact ⟨l, hl, by simp [hid, hlast]⟩

end Single

/-! ## What a use can do -/

/-- A transaction begins, with a permit that was free or had been handed over. -/
structure Opens (p p' : Pool) : Prop where
  leases : p'.leases = p.leases ++ [⟨p.nextId, 1, true⟩]
  events : p'.events = p.events ++ [.begin p.nextId]
  nextId : p'.nextId = p.nextId + 1
  permits : p'.permits = p.permits

/-- A transaction is ended: its permit comes back, and one event is recorded. -/
structure Ends (h : Handle) (e : Event) (p p' : Pool) : Prop where
  event : e = .commit h ∨ e = .rollback h
  leases : p'.leases = p.leases.map (Lease.withoutPermit h)
  events : p'.events = p.events ++ [e]
  nextId : p'.nextId = p.nextId
  permits : p.ids.Nodup → p'.permits = p.permits

/-- Nothing is recorded: each lease changes on its own, and stays true to what is open. -/
structure Stays (p p' : Pool) : Prop where
  events : p'.events = p.events
  nextId : p'.nextId = p.nextId
  permits : p.ids.Nodup → p'.permits = p.permits
  leases : ∃ f : Lease → Lease, p'.leases = p.leases.map f ∧ (∀ l, (f l).id = l.id) ∧
    (∀ l, (f l).hasPermit = true → l.hasPermit = true) ∧
    (p.Numbered → ∀ l ∈ p.leases, l.hasPermit = p.isOpen l → (f l).hasPermit = p.isOpen (f l))

section Cases

variable {p p' : Pool}

/-- The leases stay as they are. -/
theorem Stays.of_leases (hevents : p'.events = p.events) (hnext : p'.nextId = p.nextId)
    (hpermits : p'.permits = p.permits) (hleases : p'.leases = p.leases) : Stays p p' :=
  ⟨hevents, hnext, fun _ => hpermits, id, hleases.trans (List.map_id _).symm, fun _ => rfl,
    fun _ => id, fun _ _ _ => id⟩

/-- A transaction begins with a permit that has been set aside for it. -/
theorem opens_openLease {q : Pool} (hpermits : q.permits + 1 = p.permits)
    (hleases : q.leases = p.leases) (hevents : q.events = p.events) (hnext : q.nextId = p.nextId) :
    Opens p q.openLease.2 where
  leases := by rw [← hleases, ← hnext]; rfl
  events := by rw [← hevents, ← hnext]; rfl
  nextId := congrArg (· + 1) hnext
  permits := by
    rw [← hpermits]
    show q.free + (q.leases ++ [_]).countP _ + q.granted.length = _
    rw [List.countP_append]
    show q.free + (q.out + 1) + q.granted.length = q.free + q.out + q.granted.length + 1
    omega

/-- Who asks while a permit is free has a transaction at once, under the next number. -/
theorem opens_begin {q : Pool} {h : Handle} (hbegin : p.begin = (.inl h, q)) :
    h = p.nextId ∧ Opens p q ∧ q.line = p.line := by
  unfold Pool.begin at hbegin
  split at hbegin
  · next hfree =>
    obtain ⟨hid, rfl⟩ := Prod.mk.inj hbegin
    refine ⟨(Sum.inl.inj hid).symm, opens_openLease ?_ rfl rfl rfl, rfl⟩
    show p.free - 1 + p.out + p.granted.length + 1 = p.free + p.out + p.granted.length
    omega
  · cases hbegin

/-- Who asks while no permit is free gets in line. -/
theorem queues_begin {q : Pool} {ticket : Nat} (hbegin : p.begin = (.inr ticket, q)) :
    Stays p q ∧ q.line = ticket ::ₘ p.line := by
  unfold Pool.begin at hbegin
  split at hbegin
  · cases hbegin
  · obtain ⟨hticket, rfl⟩ := Prod.mk.inj hbegin
    obtain rfl := Sum.inr.inj hticket
    refine ⟨.of_leases rfl rfl rfl rfl, ?_⟩
    refine Multiset.coe_eq_coe.mpr ?_
    show (p.waiting ++ [p.nextTicket] ++ p.granted).Perm (p.nextTicket :: (p.waiting ++ p.granted))
    rw [List.append_assoc]
    exact List.perm_middle

/-- Who comes for a permit has a transaction, under the next number, and waits no longer. -/
theorem opens_claim {ticket : Nat} (hg : p.isGranted ticket = true) :
    Opens p (p.claim ticket).2 ∧ p.line = ticket ::ₘ (p.claim ticket).2.line := by
  have hin : ticket ∈ p.granted := List.contains_iff_mem.mp hg
  exact ⟨opens_openLease (permits_take p hin) rfl rfl rfl, line_take p hin⟩

/-- Who has just begun a transaction holds it. -/
theorem Opens.held {q : Pool} (hopens : Opens p q) :
    ∃ l ∈ q.leases, l.id = p.nextId ∧ l.holders ≠ 0 := by
  refine ⟨⟨p.nextId, 1, true⟩, ?_, rfl, Nat.one_ne_zero⟩
  rw [hopens.leases]
  exact List.mem_append_right _ (List.mem_singleton_self _)

theorem ends_release {h : Handle} {e : Event} (armed : Bool)
    (he : e = .commit h ∨ e = .rollback h) :
    Ends h e p { (p.release h).record e with commitFailureArmed := armed } where
  event := he
  leases := leases_release p h
  events := congrArg (· ++ [e]) (events_release p h)
  nextId := nextId_release p h
  permits := permits_release p h

theorem ends_commit (p : Pool) (h : Handle) :
    ∃ e, Ends h e p (p.commit h).2 ∧ (p.commit h).2.line = p.line := by
  unfold Pool.commit
  dsimp only
  split
  · exact ⟨_, ends_release false (.inr rfl), line_release p h⟩
  · exact ⟨_, ends_release (p.release h).commitFailureArmed (.inl rfl), line_release p h⟩

theorem ends_rollback (p : Pool) (h : Handle) :
    Ends h (.rollback h) p (p.rollback h) ∧ (p.rollback h).line = p.line :=
  ⟨ends_release _ (.inr rfl), line_release p h⟩

theorem stays_withdraw (p : Pool) (ticket : Nat) : Stays p (p.withdraw ticket) := by
  unfold withdraw
  split
  · next hgranted =>
    have hin : ticket ∈ p.granted := List.contains_iff_mem.mp hgranted
    exact .of_leases (events_giveBack _) (nextId_giveBack _)
      ((permits_giveBack _).trans (permits_take p hin)) (leases_giveBack _)
  · exact .of_leases rfl rfl rfl rfl

/-- Who gives up waits no longer. -/
theorem line_withdraw {ticket : Nat} (hin : ticket ∈ p.line) :
    p.line = ticket ::ₘ (p.withdraw ticket).line := by
  unfold withdraw
  split
  · next hgranted =>
    have hin : ticket ∈ p.granted := List.contains_iff_mem.mp hgranted
    rw [line_giveBack]
    exact line_take p hin
  · next hgranted =>
    have hnot : ticket ∉ p.granted := fun hin => hgranted (List.contains_iff_mem.mpr hin)
    have hwaiting : ticket ∈ p.waiting := (List.mem_append.mp hin).resolve_right hnot
    exact Multiset.coe_eq_coe.mpr ((List.perm_cons_erase hwaiting).append_right p.granted)

/-- One lease changes. -/
theorem Stays.of_onLease {h : Handle} (change : Lease → Lease) (hevents : p'.events = p.events)
    (hnext : p'.nextId = p.nextId) (hpermits : p.ids.Nodup → p'.permits = p.permits)
    (hleases : p'.leases = (p.onLease h change).leases) (hid : ∀ l, (change l).id = l.id)
    (hout : ∀ l, (change l).hasPermit = true → l.hasPermit = true)
    (hopen : p.Numbered → ∀ l ∈ p.leases, l.id = h → l.hasPermit = p.isOpen l →
      (change l).hasPermit = p.isOpen (change l)) : Stays p p' := by
  refine ⟨hevents, hnext, hpermits, _, hleases, fun l => ?_, fun l => ?_, fun hp l hl htrue => ?_⟩
  · split
    · exact hid l
    · rfl
  · split
    · exact hout l
    · exact id
  · split
    · next heq => exact hopen hp l hl (beq_iff_eq.mp heq) htrue
    · exact htrue

/-- Who lets somebody else hold a transaction holds it. -/
theorem stays_retain {h : Handle} (hh : ∃ l ∈ p.leases, l.id = h ∧ l.holders ≠ 0) :
    Stays p (p.retain h) := by
  refine .of_onLease (fun l => { l with holders := l.holders + 1 }) rfl rfl
    (fun _ => permits_onLease fun _ => rfl) rfl (fun _ => rfl) (fun _ => id)
    fun hp l hl hid htrue => ?_
  obtain ⟨l', hl', hid', hheld⟩ := hh
  obtain rfl := hp.lease_unique hl hl' (hid.trans hid'.symm)
  rw [htrue, isOpen, isOpen, bne_iff_ne.mpr hheld]
  rfl

@[simp] theorem line_letGo (p : Pool) (h : Handle) : (p.letGo h).line = p.line := by
  rcases p.letGo_cases h with ⟨heq, -⟩ | ⟨heq, -⟩
  · rw [heq, line_release]
    rfl
  · rw [heq]
    rfl

/-- The last one to let go of a transaction gives its permit back. -/
theorem stays_letGo (p : Pool) (h : Handle) : Stays p (p.letGo h) := by
  rcases p.letGo_cases h with ⟨heq, l', hl', hid', hlast⟩ | ⟨heq, hmore⟩
  · rw [heq]
    refine .of_onLease (h := h) (fun l => { l with holders := l.holders - 1, hasPermit := false })
      (events_release ..) (nextId_release ..) (fun hn => ?_) ?_ (fun _ => rfl)
      (fun _ hf => nomatch hf) fun hp l hl hid _ => ?_
    · refine (permits_release _ h ?_).trans (permits_onLease fun _ => rfl)
      exact Eq.mpr (congrArg List.Nodup (ids_onLease fun _ => rfl)) hn
    · rw [leases_release]
      refine (List.map_map ..).trans (List.map_congr_left fun l _ => ?_)
      by_cases hid : l.id = h <;> simp [Lease.withoutPermit, hid]
    · obtain rfl := hp.lease_unique hl hl' (hid.trans hid'.symm)
      rw [isOpen, hlast]
      rfl
  · rw [heq]
    refine .of_onLease _ rfl rfl (fun _ => permits_onLease fun _ => rfl) rfl (fun _ => rfl)
      (fun _ => id) fun hp l hl hid htrue => ?_
    have hstill := hmore l hl hid
    have hheld : l.holders ≠ 0 := fun h0 => hstill (by rw [h0])
    rw [htrue, isOpen, isOpen, bne_iff_ne.mpr hheld]
    dsimp only
    rw [bne_iff_ne.mpr hstill]

theorem Use.of_begin {q : Pool} {x : Handle ⊕ Nat} (hbegin : p.begin = (x, q)) : Use p q := by
  have huse : Use p p.begin.2 := .begin
  rwa [hbegin] at huse

/-- A use begins a transaction, or ends one, or records nothing. -/
theorem Use.cases (huse : Use p p') : Opens p p' ∨ (∃ h e, Ends h e p p') ∨ Stays p p' := by
  cases huse with
  | begin =>
    rcases hbegin : p.begin with ⟨h | ticket, q⟩
    · exact .inl (opens_begin hbegin).2.1
    · exact .inr (.inr (queues_begin hbegin).1)
  | claim hg => exact .inl (opens_claim hg).1
  | withdraw ticket => exact .inr (.inr (stays_withdraw p ticket))
  | commit h =>
    obtain ⟨e, hends, -⟩ := ends_commit p h
    exact .inr (.inl ⟨h, e, hends⟩)
  | rollback h => exact .inr (.inl ⟨h, .rollback h, (ends_rollback p h).1⟩)
  | retain hh => exact .inr (.inr (stays_retain hh))
  | letGo h => exact .inr (.inr (stays_letGo p h))
  | armCommitFailure => exact .inr (.inr (.of_leases rfl rfl rfl rfl))

end Cases

/-! ## Every use keeps it -/

section Kept

variable {p p' : Pool} {h : Handle}

theorem eventsOf_append {e : Event} (hevents : p'.events = p.events ++ [e]) (h : Handle) :
    p'.eventsOf h = p.eventsOf h ++ if e.id == h then [e] else [] := by
  rw [eventsOf, hevents, List.filter_append, List.filter_singleton, cond_eq_ite]
  rfl

/-- An event of another transaction. -/
theorem isOpen_of_ne {e : Event} (hevents : p'.events = p.events ++ [e]) {l : Lease}
    (hne : e.id ≠ l.id) : p'.isOpen l = p.isOpen l := by
  rw [isOpen, eventsOf_append hevents, beq_false_of_ne hne]
  simp [isOpen]

/-- The last event of a transaction tells whether it has been ended. -/
theorem isOpen_of_last {e : Event} (hevents : p'.events = p.events ++ [e]) {l : Lease}
    (hid : e.id = l.id) : p'.isOpen l = (l.holders != 0 && e == .begin l.id) := by
  rw [isOpen, eventsOf_append hevents, hid, beq_self_eq_true]
  simp

theorem begin_mem_eventsOf (hh : h ∈ p.begun) : .begin h ∈ p.eventsOf h := by
  obtain ⟨e, he, hbegun⟩ := List.mem_filterMap.mp hh
  cases e with
  | begin id =>
    obtain rfl := Option.some.inj hbegun
    exact List.mem_filter.mpr ⟨he, beq_self_eq_true id⟩
  | commit id => cases hbegun
  | rollback id => cases hbegun

theorem Ends.id_eq {e : Event} (hends : Ends h e p p') : e.id = h := by
  rcases hends.event with rfl | rfl <;> rfl

theorem Opens.numbered (hopens : Opens p p') (hp : p.Numbered) : p'.Numbered := by
  have hids : p'.ids = p.ids ++ [p.nextId] := by
    rw [ids, hopens.leases, List.map_append]
    rfl
  have hbegun : p'.begun = p.begun ++ [p.nextId] := by
    rw [begun, hopens.events, List.filterMap_append]
    rfl
  constructor
  · rw [hids, List.length_append, List.range'_append_1.symm, ← hp.ids, hp.next, Nat.add_comm]
    rfl
  · rw [hids, List.length_append, hopens.nextId, hp.next]
    rfl
  · rw [hids, hbegun, hp.begun]

theorem Use.numbered (huse : Use p p') (hp : p.Numbered) : p'.Numbered := by
  rcases huse.cases with hopens | ⟨h, e, hends⟩ | hstays
  · exact hopens.numbered hp
  · refine hp.of_eq ?_ hends.nextId ?_
    · rw [ids, hends.leases, List.map_map]
      exact List.map_congr_left fun l _ => id_withoutPermit h l
    · rw [begun, hends.events, List.filterMap_append]
      rcases hends.event with rfl | rfl <;> exact List.append_nil _
  · obtain ⟨f, hleases, hid, -, -⟩ := hstays.leases
    refine hp.of_eq ?_ hstays.nextId ?_
    · rw [ids, hleases, List.map_map]
      exact List.map_congr_left fun l _ => hid l
    · rw [begun, hstays.events]
      rfl

theorem Use.permits (huse : Use p p') (hp : p.Numbered) : p'.permits = p.permits := by
  rcases huse.cases with hopens | ⟨h, e, hends⟩ | hstays
  · exact hopens.permits
  · exact hends.permits hp.nodup
  · exact hstays.permits hp.nodup

theorem Use.truthful (huse : Use p p') (hn : p.Numbered) (hp : p.Truthful) : p'.Truthful := by
  intro l hl
  rcases huse.cases with hopens | ⟨h, e, hends⟩ | hstays
  · rw [hopens.leases] at hl
    rcases List.mem_append.mp hl with hl | hl
    · rw [hp l hl, isOpen_of_ne hopens.events]
      exact Nat.ne_of_gt (hn.lt_of_begun (hn.begun_of_mem hl))
    · rw [List.mem_singleton.mp hl, isOpen_of_last hopens.events rfl]
      simp
  · rw [hends.leases] at hl
    obtain ⟨l', hl', rfl⟩ := List.mem_map.mp hl
    unfold Lease.withoutPermit
    split
    · next heq =>
      have hid : e.id = ({ l' with hasPermit := false } : Lease).id :=
        hends.id_eq.trans (beq_iff_eq.mp heq).symm
      rw [isOpen_of_last hends.events hid]
      rcases hends.event with rfl | rfl <;> simp
    · next hne =>
      rw [hp l' hl', isOpen_of_ne hends.events]
      exact fun he => hne (beq_iff_eq.mpr (he.symm.trans hends.id_eq))
  · obtain ⟨f, hleases, -, -, htrue⟩ := hstays.leases
    rw [hleases] at hl
    obtain ⟨l', hl', rfl⟩ := List.mem_map.mp hl
    rw [htrue hn l' hl' (hp l' hl'), isOpen, isOpen, eventsOf, eventsOf, hstays.events]

/-- A permit that comes out is one of a transaction that has just begun. -/
theorem Use.isOut (huse : Use p p') (hout : p'.IsOut h) : p.IsOut h ∨ p.nextId ≤ h := by
  obtain ⟨l, hl, hid, hpermit⟩ := hout
  rcases huse.cases with hopens | ⟨h', e, hends⟩ | hstays
  · rw [hopens.leases] at hl
    rcases List.mem_append.mp hl with hl | hl
    · exact .inl ⟨l, hl, hid, hpermit⟩
    · rw [List.mem_singleton.mp hl] at hid
      exact .inr (Nat.le_of_eq hid)
  · rw [hends.leases] at hl
    obtain ⟨l', hl', rfl⟩ := List.mem_map.mp hl
    unfold Lease.withoutPermit at hid hpermit
    split at hid
    · next heq =>
      rw [if_pos heq] at hpermit
      cases hpermit
    · next hne =>
      rw [if_neg hne] at hpermit
      exact .inl ⟨l', hl', hid, hpermit⟩
  · obtain ⟨f, hleases, hsame, hstill, -⟩ := hstays.leases
    rw [hleases] at hl
    obtain ⟨l', hl', rfl⟩ := List.mem_map.mp hl
    exact .inl ⟨l', hl', (hsame l').symm.trans hid, hstill l' hpermit⟩

theorem Use.nextId_le (huse : Use p p') : p.nextId ≤ p'.nextId := by
  rcases huse.cases with hopens | ⟨h, e, hends⟩ | hstays
  · exact Nat.le_of_lt (Nat.lt_of_lt_of_eq (Nat.lt_succ_self _) hopens.nextId.symm)
  · exact Nat.le_of_eq hends.nextId.symm
  · exact Nat.le_of_eq hstays.nextId.symm

/-- A pool that nobody has used. -/
theorem kept_ofSize (name : String) (size : Nat) : (ofSize name size).Kept size where
  numbered := ⟨rfl, rfl, rfl⟩
  permits := rfl
  truthful _ hl := nomatch hl

variable {size : Nat}

theorem Use.kept (huse : Use p p') (hp : p.Kept size) : p'.Kept size where
  numbered := huse.numbered hp.numbered
  permits := (huse.permits hp.numbered).trans hp.permits
  truthful := huse.truthful hp.numbered hp.truthful

theorem Uses.kept (huses : Uses p p') (hp : p.Kept size) : p'.Kept size := by
  induction huses with
  | refl => exact hp
  | tail _ huse ih => exact huse.kept ih

/-- A permit that has come back stays back. -/
theorem Uses.isOut (huses : Uses p p') (hh : h < p.nextId) (hback : ¬ p.IsOut h) :
    ¬ p'.IsOut h := by
  have hall : h < p'.nextId ∧ ¬ p'.IsOut h := by
    induction huses with
    | refl => exact ⟨hh, hback⟩
    | tail _ huse ih =>
      refine ⟨Nat.lt_of_lt_of_le ih.1 huse.nextId_le, fun hout => ?_⟩
      exact (huse.isOut hout).elim ih.2 (Nat.not_le.mpr ih.1)
  exact hall.2

/-- As many permits are out as transactions are open. -/
theorem Kept.out_eq (hp : p.Kept size) : p.out = p.openCount :=
  List.countP_congr fun l hl => by rw [hp.truthful l hl]

/-- No more transactions are open than there are permits. -/
theorem Kept.openCount_le (hp : p.Kept size) : p.openCount ≤ size := by
  have hpermits := hp.permits
  have hout := hp.out_eq
  unfold Pool.permits at hpermits
  omega

/-- The begins come in the order of their numbers, from one on. -/
theorem Kept.begun_eq (hp : p.Kept size) : p.begun = List.range' 1 p.begun.length := by
  rw [hp.numbered.begun]
  exact hp.numbered.ids

end Kept

end Pool

/-! ## Sources on a pool -/

namespace Source

variable {p : Pool}

theorem begin_opened {h : Handle} {source : Source}
    (hbegin : (pool p).begin = (.opened h, source)) :
    ∃ q, source = .pool q ∧ p.begin = (.inl h, q) := by
  simp only [Source.begin] at hbegin
  split at hbegin
  · next h' q heq =>
    obtain ⟨hh, rfl⟩ := Prod.mk.inj hbegin
    obtain rfl := Begun.opened.inj hh
    exact ⟨q, rfl, heq⟩
  · cases (Prod.mk.inj hbegin).1

theorem begin_queued {number : Nat} {source : Source}
    (hbegin : (pool p).begin = (.queued number, source)) :
    ∃ q, source = .pool q ∧ p.begin = (.inr number, q) := by
  simp only [Source.begin] at hbegin
  split at hbegin
  · cases (Prod.mk.inj hbegin).1
  · next ticket q heq =>
    obtain ⟨ht, rfl⟩ := Prod.mk.inj hbegin
    obtain rfl := Begun.queued.inj ht
    exact ⟨q, rfl, heq⟩

/-- A pool makes no promises. -/
theorem begin_ne_answering {delay : Nat} {reply : Except String Handle} {source : Source} :
    (pool p).begin ≠ (.answering delay reply, source) := by
  intro hbegin
  simp only [Source.begin] at hbegin
  split at hbegin <;> cases (Prod.mk.inj hbegin).1

end Source

/-! ## Direct calls -/

/-- A direct call uses its pool. -/
theorem Direct.call_uses {d : Direct} {p : Pool} (hd : d.source = .pool p) (c : DirectCall) :
    ∃ p', (d.call c).2.source = .pool p' ∧ Pool.Uses p p' := by
  cases c with
  | begin =>
    simp only [call, begin, hd, Source.begin]
    rcases hbegin : p.begin with ⟨h | ticket, q⟩
    · exact ⟨q, rfl, .single (.of_begin hbegin)⟩
    · exact ⟨q.withdraw ticket, rfl, .tail (.single (.of_begin hbegin)) (.withdraw ticket)⟩
  | finish t slot =>
    simp only [call]
    split
    · exact ⟨p, hd, .refl⟩
    · next h _ =>
      rw [hd]
      cases t with
      | commit => exact ⟨(p.commit h).2, rfl, .single (.commit h)⟩
      | rollback => exact ⟨p.rollback h, rfl, .single (.rollback h)⟩
  | drop slot =>
    simp only [call]
    split
    · exact ⟨p, hd, .refl⟩
    · next h _ =>
      rw [hd]
      exact ⟨p.letGo h, rfl, .single (.letGo h)⟩
  | armCommitFailure =>
    simp only [call, hd]
    exact ⟨p.armCommitFailure, rfl, .single .armCommitFailure⟩
  | name => exact ⟨p, hd, .refl⟩

end BootEngine.Transaction
