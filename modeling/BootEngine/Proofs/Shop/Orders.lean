import Mathlib.Data.List.Forall2
import Mathlib.Data.List.Perm.Basic
import BootEngine.Proofs.Shop.Placing

/-!
# Orders and events

Calls that place orders run side by side, in any order and on any source. Inside its transaction a
call inserts its order and puts its event off until the commit. The ledger is not part of the
transaction: a rollback takes nothing out of it. That makes a difference in one place only. A call
whose article is out of stock is rolled back before it inserts anything; but when the commit fails,
the order stands in the ledger already, and stays there without an event.

So when all calls have returned, the orders are those of the calls that returned well, each under
the number that its call returned, and of the calls whose commit failed; the events are as many as
the calls that returned well.

Contents:
* `Tallies`, `Tallies.writes`: the ledger holds what calls have done to it.
* `Call`, `Consistent`, `Consistent.goes`: calls side by side, one of which goes on.
* `opening`, `AreConsistent`, `AreConsistent.take`: callers who are such calls, and their turns.
* `Agrees`, `orders_agree`: what holds when all calls have returned.
* `order_outlives_failed_commit`: an order without an event.
-/

namespace BootEngine.Shop

open Work (Outcome UnitId World Thread Turn Callers Machine Unnoticed)

/-! ## The ledger -/

/-- The orders that calls have inserted. -/
def ordersOf (entries : List (Request × Share)) : List Order :=
  entries.filterMap fun e => e.2.id?.map e.1.order

/-- The ledger holds what the calls have done to it: their orders, under the numbers from one on,
    and their events. -/
structure Tallies (l : Ledger) (entries : List (Request × Share)) : Prop where
  orders : l.orders.Perm (ordersOf entries)
  numbered : l.orders.map Order.id = List.range' 1 l.orders.length
  sent : l.sent = entries.countP fun e => e.2.isAnnounced

section Tallies

variable {l : Ledger} {r : Request} {entries entries' : List (Request × Share)}

theorem Tallies.perm (h : Tallies l entries) (hp : entries.Perm entries') : Tallies l entries' where
  orders := h.orders.trans (hp.filterMap _)
  numbered := h.numbered
  sent := h.sent.trans (hp.countP_eq _)

/-- What a call writes is told by its share. -/
theorem Tallies.writes {x y : Ledger × Share} (hw : Writes r x y)
    (h : Tallies x.1 ((r, x.2) :: entries)) : Tallies y.1 ((r, y.2) :: entries) := by
  cases hw with
  | nothing l s => exact h
  | insert l =>
    refine { orders := ?_, numbered := ?_, sent := h.sent }
    · have hbefore : l.orders.Perm (ordersOf entries) := h.orders
      exact (List.perm_append_singleton ..).trans (hbefore.cons _)
    · show (l.orders ++ [_]).map Order.id = List.range' 1 (l.orders ++ [_]).length
      rw [List.map_append, h.numbered, List.length_append, List.length_singleton,
        List.range'_concat, Nat.one_mul, Nat.add_comm 1]
      rfl
  | send l id =>
    refine { orders := h.orders, numbered := h.numbered, sent := ?_ }
    have hbefore : l.sent = entries.countP fun e => e.2.isAnnounced := h.sent
    show l.sent + 1 = _
    rw [hbefore, List.countP_cons_of_pos rfl]

end Tallies

/-! ## All calls -/

/-- A call among others. -/
structure Call where
  request : Request
  slot : Slot
  share : Share
  thread : Thread host

namespace Call

/-- A call that has not begun. -/
def start (r : Request) : Call := ⟨r, none, .nothing, r.thread⟩

/-- What a call has done to the ledger. -/
def entry (c : Call) : Request × Share := (c.request, c.share)

/-- Two calls have no unit in common. -/
def IsApart (c d : Call) : Prop :=
  ∀ u state state', c.slot = some (u, state) → d.slot ≠ some (u, state')

end Call

/-- Every call is at some stage and has a unit of its own, and the ledger holds what they have
    done. -/
structure Consistent (w : World host) (calls : List Call) : Prop where
  stage : ∀ c ∈ calls, Stage c.request c.slot c.share c.thread
  holds : ∀ c ∈ calls, Holds c.slot w
  apart : calls.Pairwise Call.IsApart
  tallies : Tallies w.host (calls.map Call.entry)

section Consistent

variable {w w' : World host} {calls calls' : List Call}

theorem Consistent.perm (h : Consistent w calls) (hp : calls.Perm calls') :
    Consistent w calls' where
  stage := fun c hc => h.stage c (hp.mem_iff.mpr hc)
  holds := fun c hc => h.holds c (hp.mem_iff.mpr hc)
  apart := by
    refine (hp.pairwise_iff ?_).mp h.apart
    exact fun hcd u state state' hd hc => hcd u state' state hc hd
  tallies := h.tallies.perm (hp.map _)

theorem Consistent.unnoticed (h : Consistent w calls) (hw : Unnoticed w w') :
    Consistent w' calls where
  stage := h.stage
  holds := fun c hc u state he => by
    obtain ⟨hlt, hunit⟩ := h.holds c hc u state he
    exact ⟨hw.units ▸ hlt, (hw.unit u).trans hunit⟩
  apart := h.apart
  tallies := hw.host ▸ h.tallies

/-- One call goes on; the others notice nothing of it but what it writes. -/
theorem Consistent.goes {c : Call} {own : Option UnitId} {m : Machine host} {slot : Slot}
    {s : Share} (h : Consistent w (c :: calls))
    (hown : own = c.slot.map Prod.fst ∨ own = some w.units.length)
    (hgoes : Goes c.request own w c.share m slot s) :
    Consistent m.world (⟨c.request, slot, s, m.thread⟩ :: calls) := by
  obtain ⟨hapart, hrest⟩ := List.pairwise_cons.mp h.apart
  -- The unit that the call uses belongs to no other one.
  have hfree : ∀ d ∈ calls, ∀ u state, d.slot = some (u, state) → own ≠ some u := by
    intro d hd u state hslot howned
    rcases hown with rfl | rfl
    · obtain ⟨⟨v, state'⟩, hc, rfl⟩ := Option.map_eq_some_iff.mp howned
      exact hapart d hd v state' state hc hslot
    · obtain ⟨hlt, -⟩ := h.holds d (List.mem_cons_of_mem c hd) u state hslot
      have hsame : w.units.length = u := Option.some.inj howned
      exact Nat.lt_irrefl u (hsame ▸ hlt)
  constructor
  case stage =>
    intro d hd
    rcases List.mem_cons.mp hd with rfl | hd
    · exact hgoes.stage
    · exact h.stage d (List.mem_cons_of_mem c hd)
  case holds =>
    intro d hd
    rcases List.mem_cons.mp hd with rfl | hd
    · exact hgoes.holds
    · intro u state hslot
      obtain ⟨hlt, hunit⟩ := h.holds d (List.mem_cons_of_mem c hd) u state hslot
      exact ⟨Nat.lt_of_lt_of_le hlt hgoes.spares.longer,
        (hgoes.spares.units u hlt (hfree d hd u state hslot)).trans hunit⟩
  case apart =>
    refine List.pairwise_cons.mpr ⟨fun d hd u state state' hslot hother => ?_, hrest⟩
    exact hfree d hd u state' hother (hgoes.unit u state hslot)
  case tallies => exact h.tallies.writes hgoes.writes

end Consistent

/-- A shop without orders, in a world in which anything may have happened before, and the calls that
    begin there. -/
def opening (w : World host) (outOfStock : List String) (requests : List Request) : Callers host :=
  ⟨{ w with host := .opened outOfStock }, requests.map Request.thread⟩

/-- The callers are calls for what is asked, and agree with the ledger. -/
def AreConsistent (requests : List Request) (c : Callers host) : Prop :=
  ∃ calls, calls.map Call.request = requests ∧ c.threads = calls.map Call.thread ∧
    Consistent c.world calls

section Runs

variable {requests : List Request} {c : Callers host}

theorem areConsistent_opening (w : World host) (outOfStock : List String)
    (requests : List Request) : AreConsistent requests (opening w outOfStock requests) := by
  refine ⟨requests.map Call.start, ?_, ?_, ?_⟩
  · rw [List.map_map]
    exact List.map_id requests
  · rw [List.map_map]
    rfl
  constructor
  case stage =>
    intro d hd
    obtain ⟨r, -, rfl⟩ := List.mem_map.mp hd
    exact .asked
  case holds =>
    intro d hd
    obtain ⟨r, -, rfl⟩ := List.mem_map.mp hd
    exact holds_none _
  case apart =>
    refine List.pairwise_map.mpr (List.pairwise_of_forall fun r r' u state state' he => ?_)
    cases he
  case tallies =>
    refine { orders := ?_, numbered := rfl, sent := ?_ }
    · have hnone : ordersOf ((requests.map Call.start).map Call.entry) = [] := by
        rw [ordersOf, List.filterMap_eq_nil_iff]
        simp [Call.start, Call.entry, Share.id?]
      rw [hnone]
      exact .nil
    · refine (List.countP_eq_zero.mpr ?_).symm
      simp [Call.start, Call.entry, Share.isAnnounced]

/-- Every turn keeps calls and ledger in agreement. -/
theorem AreConsistent.take (h : AreConsistent requests c) (turn : Turn) :
    AreConsistent requests (c.take turn) := by
  obtain ⟨calls, rfl, hthreads, hcons⟩ := h
  cases turn with
  | go place =>
    rcases Nat.lt_or_ge place calls.length with hlt | hge
    · have hthread : c.threads[place]? = some calls[place].thread := by
        rw [hthreads, List.getElem?_map, List.getElem?_eq_getElem hlt]
        rfl
      -- The call that goes on is put in front of the others, and back afterwards.
      have hfirst := hcons.perm (List.getElem_cons_eraseIdx_perm hlt).symm
      obtain ⟨own, slot, s, hown, hgoes⟩ := (hfirst.stage _ (List.mem_cons_self ..)).go
        (hfirst.holds _ (List.mem_cons_self ..))
      let next : Call := ⟨calls[place].request, slot, s, (calls[place].thread.go c.world).thread⟩
      rw [Callers.take_go hthread]
      refine ⟨calls.set place next, ?_, ?_, ?_⟩
      · have hin : place < (calls.map Call.request).length := by
          rw [List.length_map]
          exact hlt
        have hsame : next.request = (calls.map Call.request)[place] := by rw [List.getElem_map]
        rw [List.map_set, hsame, List.set_getElem_self]
      · rw [List.map_set, hthreads]
      · exact (hfirst.goes hown hgoes).perm (List.set_perm_cons_eraseIdx hlt next).symm
    · have hnone : c.threads[place]? = none := by
        rw [hthreads, List.getElem?_map, List.getElem?_eq_none hge]
        rfl
      rw [Callers.take_go_of_none hnone]
      exact ⟨calls, rfl, hthreads, hcons⟩
  | background => exact ⟨calls, rfl, hthreads, hcons.unnoticed (.runBackground _)⟩
  | elapse now => exact ⟨calls, rfl, hthreads, hcons.unnoticed ⟨rfl, rfl⟩⟩
  | share source => exact ⟨calls, rfl, hthreads, hcons.unnoticed ⟨rfl, rfl⟩⟩

theorem AreConsistent.play (h : AreConsistent requests c) (turns : List Turn) :
    AreConsistent requests (c.play turns) := by
  induction turns generalizing c with
  | nil => exact h
  | cons turn turns ih => exact ih (h.take turn)

end Runs

/-! ## When all calls have returned -/

theorem countP_isOk {outcomes : List (Outcome host)} {shares : List Share}
    (h : List.Forall₂ Leaves outcomes shares) :
    outcomes.countP Except.isOk = shares.countP Share.isAnnounced := by
  induction h with
  | nil => rfl
  | cons hl _ ih => rw [List.countP_cons, List.countP_cons, ih, hl.isOk]

/-- Orders and events agree with how the calls have returned: the orders are those that the calls
    have left, each under a number of its own, and there is an event for every call that returned
    well. -/
structure Agrees (requests : List Request) (outcomes : List (Outcome host)) (shares : List Share)
    (l : Ledger) : Prop where
  all : outcomes.length = requests.length
  leaves : List.Forall₂ Leaves outcomes shares
  orders : l.orders.Perm (ordersOf (requests.zip shares))
  distinct : (l.orders.map Order.id).Nodup
  events : l.sent = outcomes.countP Except.isOk

/-- However the calls interleave, and whatever the source answers: when all of them have returned,
    orders and events agree with how they have returned. -/
theorem orders_agree (w : World host) (outOfStock : List String) (requests : List Request)
    (turns : List Turn) (outcomes : List (Outcome host))
    (hend : ((opening w outOfStock requests).play turns).threads = outcomes.map Thread.ended) :
    ∃ shares, Agrees requests outcomes shares
      ((opening w outOfStock requests).play turns).world.host := by
  obtain ⟨calls, hrequests, hthreads, hcons⟩ :=
    (areConsistent_opening w outOfStock requests).play turns
  have hends : List.Forall₂ (fun c o => c.thread = Thread.ended o) calls outcomes := by
    have hsame := hthreads.symm.trans hend
    rw [← List.forall₂_eq_eq_eq] at hsame
    exact List.forall₂_map_right_iff.mp (List.forall₂_map_left_iff.mp hsame)
  have hstages := (List.forall₂_and_left calls outcomes).mpr ⟨hcons.stage, hends⟩
  have hleaves : List.Forall₂ Leaves outcomes (calls.map Call.share) := by
    refine List.forall₂_map_right_iff.mpr (hstages.flip.imp fun o c hc => ?_)
    exact (hc.2 ▸ hc.1 : Stage c.request c.slot c.share (.ended o)).leaves
  have hentries : requests.zip (calls.map Call.share) = calls.map Call.entry := by
    rw [← hrequests, List.zip_map']
    rfl
  refine ⟨calls.map Call.share, ?_, hleaves, ?_, ?_, ?_⟩
  · rw [← hrequests, List.length_map, hends.length_eq]
  · rw [hentries]
    exact hcons.tallies.orders
  · rw [hcons.tallies.numbered]
    exact List.nodup_range'
  · rw [hcons.tallies.sent, countP_isOk hleaves, List.countP_map, List.countP_map]
    rfl

/-! ## A commit that fails -/

/-- A source that lends one permit, and whose next commit fails. -/
def failingOnce : World host :=
  .fresh (.armCommitFailure (.pool (.ofSize "db" 1))) none (.opened [])

/-- The third article will be out of stock. -/
def threeRequests : List Request := [⟨"A", 1⟩, ⟨"B", 2⟩, ⟨"C", 1⟩]

/-- All calls ask for a transaction before the first one has ended; then they go on one after
    another. -/
def threeInLine : List Turn :=
  [.go 0, .go 1, .go 2] ++ .replicate 5 (.go 0) ++ .replicate 10 (.go 1) ++ .replicate 5 (.go 2)

/-- The first commit fails, the second call is served, and the third one is turned down. -/
def threeOutcomes : List (Outcome host) :=
  [.error (.transaction (.commitFailed "事务 1 提交失败")), .ok (.int 2),
    .error (.fault (.outOfStock "C"))]

theorem orders_agree_threeInLine :
    ((opening failingOnce ["C"] threeRequests).play threeInLine).threads =
        threeOutcomes.map Thread.ended ∧
      ∃ shares, Agrees threeRequests threeOutcomes shares
        ((opening failingOnce ["C"] threeRequests).play threeInLine).world.host :=
  ⟨rfl, orders_agree failingOnce ["C"] threeRequests threeInLine threeOutcomes rfl⟩

/-- A call returns with an error, and its order stands in the ledger. -/
theorem order_outlives_failed_commit :
    ((opening failingOnce [] [⟨"A", 1⟩]).play (.replicate 6 (.go 0))).threads =
        [.ended (.error (.transaction (.commitFailed "事务 1 提交失败")))] ∧
      ((opening failingOnce [] [⟨"A", 1⟩]).play (.replicate 6 (.go 0))).world.host =
        (⟨[], [⟨1, "A", 1⟩], 0⟩ : Ledger) :=
  ⟨rfl, rfl⟩

end BootEngine.Shop
