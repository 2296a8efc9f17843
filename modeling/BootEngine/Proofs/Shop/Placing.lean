import BootEngine.Proofs.Work.Callers
import BootEngine.Shop.Ledger

/-!
# A call that places an order

Where a call stands that places an order, from its start to its return: it makes a unit, waits for a
transaction, checks the article, inserts the order, puts the event off, and has the transaction
ended; after a commit it sends the event. Other callers may do what they like in between, as long as
they leave the unit of the call alone.

Contents:
* `Request`, `Share`, `Leaves`: what a call asks for, what it has done to the ledger, and what it
  leaves there when it returns.
* `Stage`, `Holds`: how far a call is, and the unit that it has for itself.
* `Writes`, `Goes`: what a call does in one turn.
* `settle_stage`, `openScope_goes` and the like: what the functions of the machine do to a call.
* `Stage.go`: one turn of a call.
* `Stage.leaves`: a call that has returned.
-/

namespace BootEngine.Shop

open Transaction (Handle Context)
open Work (Step Outcome UnitId UnitState World Paused Focus Closing Acquiring Thread Machine
  Unnoticed Spares)

/-! ## Calls and what they leave -/

/-- What a call asks for; the handler always asks for one piece. -/
structure Request where
  sku : String
  quantity : Nat

namespace Request

/-- The work of a call inside its transaction. -/
def work (r : Request) : List (Step host) :=
  [.perform (.check r.sku), .perform (.insert r.sku r.quantity), .defer true [.perform .send]]

/-- A call that has not begun. -/
def thread (r : Request) : Thread host := .starting 0 (placing r.sku r.quantity)

/-- The order of a call, under a number. -/
def order (r : Request) (id : Nat) : Order := ⟨id, r.sku, r.quantity⟩

end Request

/-- What a call has done to the ledger. -/
inductive Share where
  | nothing
  /-- Its order has been inserted. -/
  | inserted (id : Nat)
  /-- Its order has been inserted, and its event has been sent. -/
  | announced (id : Nat)

namespace Share

/-- The number of the order. -/
def id? : Share → Option Nat
  | nothing => none
  | inserted id => some id
  | announced id => some id

/-- The event has been sent. -/
def isAnnounced : Share → Bool
  | announced _ => true
  | _ => false

end Share

/-- What a call leaves in the ledger, by how it returns. The only error with which a call leaves an
    order is that of a failed commit. -/
inductive Leaves : Outcome host → Share → Prop
  | placed (id : Nat) : Leaves (.ok (.int id)) (.announced id)
  | uncommitted (reason : String) (id : Nat) :
      Leaves (.error (.transaction (.commitFailed reason))) (.inserted id)
  | outOfStock (sku : String) : Leaves (.error (.fault (.outOfStock sku))) .nothing
  | beginFailed (reason : String) : Leaves (.error (.transaction (.beginFailed reason))) .nothing
  | acquireTimeout (ms : Nat) : Leaves (.error (.transaction (.acquireTimeout ms))) .nothing

/-! ## How far a call is -/

/-- A computation is suspended, or is being looked at again. -/
def Awaits (p : Paused host) (f : Focus host) : Prop := f = .pause p ∨ f = .enter p

/-- The unit of a call inside its transaction. -/
def unitAtWork (h : Handle) : UnitState host := ⟨some (.start h), false⟩

/-- The unit of a call that has put its event off. -/
def unitWithEvent (h : Handle) : UnitState host :=
  ⟨some ((Context.start h).defer [.perform .send]), false⟩

/-- The calls that end the transaction of a request: a commit, after which the event is sent, or a
    rollback because the article is out of stock. -/
inductive Closes : Share → Closing host → Prop
  | commit (held : List Handle) (u : UnitId) (h : Handle) (id : Nat) :
      Closes (.inserted id) (.commit held u h [[.perform .send]] (.int id))
  | rollback (held : List Handle) (u : UnitId) (h : Handle) (sku : String) :
      Closes .nothing (.rollback held u h (.error (.fault (.outOfStock sku))))

/-- A unit that a call has for itself, and its state. -/
abbrev Slot := Option (UnitId × UnitState host)

/-- How far a call is: the unit that it has for itself, what it has done to the ledger, and where
    its run stands. From the end of its work on it does not need its unit any more. -/
inductive Stage (r : Request) : Slot → Share → Thread host → Prop
  | asked : Stage r none .nothing r.thread
  | waiting {u : UnitId} {limit : Option (Nat × Nat)} {wait : Acquiring} {f : Focus host}
      (hf : Awaits (.acquiring u r.work limit wait) f) :
      Stage r (some (u, .idle)) .nothing ⟨[], f⟩
  | checking {u : UnitId} {h : Handle} {value : Value} :
      Stage r (some (u, unitAtWork h)) .nothing ⟨[.frame (.outer u h)], .exec u value r.work⟩
  | inserting {u : UnitId} {h : Handle} {value : Value} :
      Stage r (some (u, unitAtWork h)) .nothing
        ⟨[.frame (.outer u h)], .exec u value
          [.perform (.insert r.sku r.quantity), .defer true [.perform .send]]⟩
  | deferring {u : UnitId} {h : Handle} {id : Nat} :
      Stage r (some (u, unitAtWork h)) (.inserted id)
        ⟨[.frame (.outer u h)], .exec u (.int id) [.defer true [.perform .send]]⟩
  | deferred {u : UnitId} {h : Handle} {id : Nat} :
      Stage r (some (u, unitWithEvent h)) (.inserted id)
        ⟨[.frame (.outer u h)], .exec u (.int id) []⟩
  | worked {u : UnitId} {h : Handle} {id : Nat} :
      Stage r (some (u, unitWithEvent h)) (.inserted id)
        ⟨[.frame (.outer u h)], .finish (.ok (.int id))⟩
  | turnedDown {u : UnitId} {h : Handle} {sku : String} :
      Stage r (some (u, unitAtWork h)) .nothing
        ⟨[.frame (.outer u h)], .finish (.error (.fault (.outOfStock sku)))⟩
  | closing {due : Nat} {failure : Option String} {call : Closing host} {s : Share}
      {f : Focus host} (hc : Closes s call) (hf : Awaits (.closing due failure call) f) :
      Stage r none s ⟨[], f⟩
  | sending {held : List Handle} {u : UnitId} {h : Handle} {value : Value} {id : Nat} :
      Stage r none (.inserted id)
        ⟨[.frame (.effects held u h 0 [] (.int id))], .exec u value [.perform .send]⟩
  | sent {held : List Handle} {u : UnitId} {h : Handle} {value : Value} {id : Nat} :
      Stage r none (.announced id)
        ⟨[.frame (.effects held u h 0 [] (.int id))], .exec u value []⟩
  | told {held : List Handle} {u : UnitId} {h : Handle} {value : Value} {id : Nat} :
      Stage r none (.announced id)
        ⟨[.frame (.effects held u h 0 [] (.int id))], .finish (.ok value)⟩
  | returned {outcome : Outcome host} {s : Share} (hl : Leaves outcome s) :
      Stage r none s (.ended outcome)

/-- The unit of a call has been made, and is in the state that the call left it in. -/
def Holds (slot : Slot) (w : World host) : Prop :=
  ∀ u state, slot = some (u, state) → u < w.units.length ∧ w.unit u = state

/-- What a call writes into the ledger in one turn. -/
inductive Writes (r : Request) : Ledger × Share → Ledger × Share → Prop
  | nothing (l : Ledger) (s : Share) : Writes r (l, s) (l, s)
  | insert (l : Ledger) :
      Writes r (l, .nothing) (l.insert r.sku r.quantity, .inserted l.nextId)
  | send (l : Ledger) (id : Nat) : Writes r (l, .inserted id) (l.send, .announced id)

/-- A call goes on: it keeps to a unit of its own and to its share of the ledger. -/
structure Goes (r : Request) (own : Option UnitId) (w : World host) (s : Share) (m : Machine host)
    (slot : Slot) (s' : Share) : Prop where
  stage : Stage r slot s' m.thread
  holds : Holds slot m.world
  unit : ∀ u state, slot = some (u, state) → own = some u
  spares : Spares own w m.world
  writes : Writes r (w.host, s) (m.world.host, s')

section Steps

variable {r : Request} {own : Option UnitId} {w w' : World host} {u : UnitId} {h : Handle}
  {s s' : Share} {slot : Slot} {m : Machine host}

theorem holds_none (w : World host) : Holds none w := fun _ _ h => nomatch h

/-- A call that has given its unit back goes on, and nobody notices. -/
theorem Goes.free (hstage : Stage r none s m.thread) (hw : Unnoticed w m.world) :
    Goes r own w s m none s where
  stage := hstage
  holds := holds_none _
  unit := fun _ _ he => nomatch he
  spares := hw.spares
  writes := by
    rw [hw.host]
    exact .nothing ..

/-- A call goes on with its unit as it is. -/
theorem Goes.keep (hstage : Stage r slot s' m.thread) (hholds : Holds slot w)
    (hunits : m.world.units = w.units) (hwrites : Writes r (w.host, s) (m.world.host, s')) :
    Goes r (slot.map Prod.fst) w s m slot s' where
  stage := hstage
  holds := fun u state he => by
    obtain ⟨hlt, hunit⟩ := hholds u state he
    rw [World.unit, hunits]
    exact ⟨hlt, hunit⟩
  unit := fun u state he => by rw [he]; rfl
  spares := by
    refine ⟨Nat.le_of_eq (by rw [hunits]), fun u _ _ => ?_⟩
    rw [World.unit, hunits]
    rfl
  writes := hwrites

/-- A call goes on with its unit as it is, and nobody notices. -/
theorem Goes.same (hstage : Stage r slot s m.thread) (hholds : Holds slot w)
    (hw : Unnoticed w m.world) : Goes r (slot.map Prod.fst) w s m slot s :=
  .keep hstage hholds hw.units (hw.host ▸ .nothing ..)

/-- A call goes on with another context on its unit. -/
theorem Goes.setContext {c : Option (Context (List (Step host)))} (hw : Unnoticed w w')
    (hu : u < w.units.length) (hm : m.world = w'.setContext u c)
    (hstage : Stage r (some (u, ⟨c, (w.unit u).cancelled⟩)) s m.thread) :
    Goes r (some u) w s m (some (u, ⟨c, (w.unit u).cancelled⟩)) s := by
  have hlt : u < w'.units.length := hw.units ▸ hu
  have hhost : (w'.setContext u c).host = w.host := hw.host
  exact {
    stage := hstage
    holds := fun v state he => by
      cases he
      rw [hm, Work.length_setContext hlt, Work.unit_setContext, hw.unit]
      exact ⟨hlt, rfl⟩
    unit := fun v state he => by
      cases he
      rfl
    spares := by
      rw [hm]
      exact hw.spares.trans (Work.spares_setContext hlt c)
    writes := by
      rw [hm, hhost]
      exact .nothing .. }

/-- What has gone before has not been noticed. -/
theorem Goes.after (h : Goes r own w' s m slot s') (hw : Unnoticed w w') :
    Goes r own w s m slot s' where
  stage := h.stage
  holds := h.holds
  unit := h.unit
  spares := hw.spares.trans h.spares
  writes := hw.host ▸ h.writes

/-! ## The end of a transaction -/

/-- A call to the source that ends the transaction has been answered. -/
theorem settle_stage {call : Closing host} (hc : Closes s call) (failure : Option String) :
    Stage r none s (Work.settle w [] failure call).thread ∧
      Unnoticed w (Work.settle w [] failure call).world := by
  have hw := Unnoticed.refl w
  cases hc with
  | commit held u h id =>
    cases failure with
    | none => exact ⟨.sending, (hw.mark _).mark _⟩
    | some reason => exact ⟨.returned (.uncommitted reason id), ((hw.mark _).letGo _).mark _⟩
  | rollback held u h sku =>
    exact ⟨.returned (.outOfStock sku), ((hw.noteRollback _ _).letGo _).mark _⟩

theorem startClosing_stage {call : Closing host} (hc : Closes s call) :
    Stage r none s (Work.startClosing w [] call).thread ∧
      Unnoticed w (Work.startClosing w [] call).world := by
  have hstarted := (Unnoticed.refl w).startFinish call.terminal call.handle
  simp only [Work.startClosing]
  split
  · obtain ⟨hstage, hsettled⟩ := settle_stage (r := r) (w := (w.startFinish _ _).2) hc _
    exact ⟨hstage, hstarted.trans hsettled⟩
  · exact ⟨.closing hc (.inl rfl), hstarted⟩

/-- Work that ended well is committed. -/
theorem closeScope_withEvent (hunit : w.unit u = unitWithEvent h) (value : Value) :
    Work.closeScope w [] u h (.ok value) = Work.startClosing (w.endWork u h (.ok value)) []
      (.commit [h, h] u h [[.perform .send]] value) := by
  have hcontext : w.context? u = some ((Context.start h).defer [.perform .send]) :=
    congrArg UnitState.context hunit
  have hcancelled : w.isCancelled u = false := congrArg UnitState.cancelled hunit
  unfold Work.closeScope
  rw [hcontext, hcancelled]
  rfl

/-- Work that failed is rolled back. -/
theorem closeScope_atWork (hunit : w.unit u = unitAtWork h) (e : Work.Failure host.Fault) :
    Work.closeScope w [] u h (.error e) = Work.startClosing (w.endWork u h (.error e)) []
      (.rollback [h, h] u h (.error e)) := by
  have hcontext : w.context? u = some (.start h) := congrArg UnitState.context hunit
  unfold Work.closeScope
  rw [hcontext]
  rfl

/-- The work has ended: the context is taken from the unit, and the transaction is ended. -/
theorem closing_goes {call : Closing host} (hu : u < w.units.length) (hc : Closes s call)
    (outcome : Outcome host) :
    Goes r (some u) w s (Work.startClosing (w.endWork u h outcome) [] call) none s := by
  obtain ⟨hstage, hw⟩ := startClosing_stage (r := r) (w := w.endWork u h outcome) hc
  have hmarked := (Unnoticed.refl w).mark (.workEnded u h outcome (w.isCancelled u))
  have hended : Spares (some u) w (w.endWork u h outcome) :=
    hmarked.spares.trans (Work.spares_setContext (hmarked.units ▸ hu) none)
  have hhost : (Work.startClosing (w.endWork u h outcome) [] call).world.host = w.host := hw.host
  exact {
    stage := hstage
    holds := holds_none _
    unit := fun _ _ he => nomatch he
    spares := hended.trans hw.spares
    writes := by
      rw [hhost]
      exact .nothing .. }

/-! ## The beginning of a transaction -/

/-- A call has its transaction, and begins its work. -/
theorem openScope_goes (hu : u < w.units.length) (hunit : w.unit u = .idle) (h : Handle) :
    Goes r (some u) w .nothing (Work.openScope w [] u h r.work) (some (u, unitAtWork h))
      .nothing := by
  have hnone : w.context? u = none := congrArg UnitState.context hunit
  have hstate : (⟨some (.start h), (w.unit u).cancelled⟩ : UnitState host) = unitAtWork h := by
    rw [hunit]
    rfl
  rw [← hstate]
  refine .setContext (((Unnoticed.refl w).mark _).withSource _) hu
    (Work.openContext_of_none hnone) ?_
  rw [hstate]
  exact .checking

/-- A call without a transaction returns. -/
theorem unserved_goes (hw : Unnoticed w w') {e : TransactionError}
    (he : Leaves (.error (.transaction e)) .nothing) :
    Goes r own w .nothing (Work.failUnserved w' [] u e) none .nothing :=
  .free (.returned he) (hw.mark _)

theorem tryAcquire_goes (hu : u < w.units.length) (hunit : w.unit u = .idle)
    (limit : Option (Nat × Nat)) (wait : Acquiring) :
    ∃ slot s', Goes r (some u) w .nothing (Work.tryAcquire w [] u r.work limit wait) slot s' := by
  have hw := Unnoticed.refl w
  have hholds : Holds (some (u, .idle)) w := fun v state he => by
    cases he
    exact ⟨hu, hunit⟩
  have hpause : ∀ limit, Goes r (some u) w .nothing
      ⟨w, [], .pause (.acquiring u r.work limit wait)⟩ (some (u, .idle)) .nothing := fun _ =>
    .same (.waiting (.inl rfl)) hholds hw
  unfold Work.tryAcquire
  split
  · cases wait with
    | ticket number =>
      have hclaimed := hw.withSource (w.source.claim number).2
      exact ⟨_, _, (openScope_goes (hclaimed.units ▸ hu) ((hclaimed.unit u).trans hunit) _).after
        hclaimed⟩
    | answer due reply =>
      cases reply with
      | ok handle => exact ⟨_, _, openScope_goes hu hunit handle⟩
      | error reason => exact ⟨_, _, unserved_goes hw (.beginFailed reason)⟩
  · cases limit with
    | none => exact ⟨_, _, hpause none⟩
    | some l =>
      dsimp only
      split
      · exact ⟨_, _, unserved_goes (hw.withdraw wait) (.acquireTimeout l.2)⟩
      · exact ⟨_, _, hpause (some l)⟩

theorem enterScope_goes (hu : u < w.units.length) (hunit : w.unit u = .idle) :
    ∃ slot s', Goes r (some u) w .nothing (Work.enterScope w [] u r.work) slot s' := by
  have hcancelled : w.isCancelled u = false := congrArg UnitState.cancelled hunit
  have hnone : w.context? u = none := congrArg UnitState.context hunit
  have hasked := (Unnoticed.refl w).request u
  have hu' := hasked.units ▸ hu
  have hunit' := (hasked.unit u).trans hunit
  unfold Work.enterScope
  rw [hcancelled, hnone]
  simp only [Bool.false_eq_true, ↓reduceIte, Work.beginOutermost]
  cases (w.request u).1 with
  | opened handle => exact ⟨_, _, (openScope_goes hu' hunit' handle).after hasked⟩
  | queued number =>
    obtain ⟨slot, s', hgoes⟩ := tryAcquire_goes (r := r) hu' hunit' _ (.ticket number)
    exact ⟨slot, s', hgoes.after hasked⟩
  | answering delay reply =>
    obtain ⟨slot, s', hgoes⟩ := tryAcquire_goes (r := r) hu' hunit' _ (.answer _ reply)
    exact ⟨slot, s', hgoes.after hasked⟩

/-! ## One turn -/

theorem act_check_ok {l : Ledger} {sku : String} {a : Unit} (h : l.check sku = .ok a) :
    Ledger.act (.check sku) l = (.ok .null, l) := by
  rw [Ledger.act, h]
  rfl

theorem act_check_error {l : Ledger} {sku : String} {fault : Fault}
    (h : l.check sku = .error fault) : Ledger.act (.check sku) l = (.error fault, l) := by
  rw [Ledger.act, h]
  rfl

/-- An action on the ledger that is answered. -/
theorem execStep_answered {layers : List (Work.Layer host)} {value answer : Value}
    {rest : List (Step host)} {action : Action} {l : Ledger}
    (hact : Ledger.act action w.host = (.ok answer, l)) :
    Work.execStep w layers u value rest (.perform action) =
      ⟨{ w with host := l }, layers, .exec u answer rest⟩ := by
  have hperform : host.perform action w.host = (.ok answer, l) := hact
  simp only [Work.execStep, hperform]

/-- An action on the ledger that is turned down. -/
theorem execStep_refused {layers : List (Work.Layer host)} {value : Value}
    {rest : List (Step host)} {action : Action} {fault : Fault} {l : Ledger}
    (hact : Ledger.act action w.host = (.error fault, l)) :
    Work.execStep w layers u value rest (.perform action) =
      ⟨{ w with host := l }, layers, .finish (.error (.fault fault))⟩ := by
  have hperform : host.perform action w.host = (.error fault, l) := hact
  simp only [Work.execStep, hperform]

/-- A call puts its event off. -/
theorem defer_goes {layers : List (Work.Layer host)} {value : Value} {rest : List (Step host)}
    (hu : u < w.units.length) (hunit : w.unit u = unitAtWork h)
    (hstage : Stage r (some (u, unitWithEvent h)) s ⟨layers, .exec u value rest⟩) :
    Goes r (some u) w s
      (Work.execStep w layers u value rest (.defer true [.perform .send]))
      (some (u, unitWithEvent h)) s := by
  have hcontext : w.context? u = some (.start h) := congrArg UnitState.context hunit
  have hstate : (⟨some ((Context.start h).defer [.perform .send]), (w.unit u).cancelled⟩ :
      UnitState host) = unitWithEvent h := by
    rw [hunit]
    rfl
  have hstep : Work.execStep w layers u value rest (.defer true [.perform .send]) =
      ⟨w.deferEffect u (.start h) [.perform .send], layers, .exec u value rest⟩ := by
    simp only [Work.execStep, hcontext]
  rw [hstep]
  rw [← hstate] at hstage ⊢
  exact .setContext ((Unnoticed.refl w).mark _) hu rfl hstage

/-- A call makes its unit, and asks for a transaction. -/
theorem go_asked (r : Request) (w : World host) :
    ∃ slot s', Goes r (some w.units.length) w .nothing (r.thread.go w) slot s' := by
  have hlt : w.units.length < w.addUnit.2.units.length := by
    rw [Work.length_addUnit]
    exact Nat.lt_succ_self _
  have hidle : w.addUnit.2.unit w.units.length = .idle := by
    rw [Work.unit_addUnit]
    exact Work.unit_of_length_le (Nat.le_refl _)
  obtain ⟨slot, s', hgoes⟩ := enterScope_goes (r := r) hlt hidle
  exact ⟨slot, s', { hgoes with spares := Work.spares_addUnit hgoes.spares }⟩

/-- One turn of a call: it goes on from stage to stage, and uses no unit but its own, which it may
    just have made. -/
theorem Stage.go {t : Thread host} (hs : Stage r slot s t) (hh : Holds slot w) :
    ∃ own slot' s', (own = slot.map Prod.fst ∨ own = some w.units.length) ∧
      Goes r own w s (t.go w) slot' s' := by
  have hw := Unnoticed.refl w
  cases hs with
  | asked =>
    obtain ⟨slot', s', hgoes⟩ := go_asked r w
    exact ⟨_, slot', s', .inr rfl, hgoes⟩
  | @waiting u limit wait f hf =>
    obtain ⟨hu, hunit⟩ := hh u .idle rfl
    have hcancelled : w.isCancelled u = false := congrArg UnitState.cancelled hunit
    rcases hf with rfl | rfl
    · exact ⟨_, _, _, .inl rfl, .same (.waiting (.inr rfl)) hh hw⟩
    · have hlook : Thread.go ⟨[], .enter (.acquiring u r.work limit wait)⟩ w =
          Work.tryAcquire w [] u r.work limit wait := if_neg (by rw [hcancelled]; decide)
      obtain ⟨slot', s', hgoes⟩ := tryAcquire_goes (r := r) hu hunit limit wait
      exact ⟨_, slot', s', .inl rfl, hlook ▸ hgoes⟩
  | @checking u h value =>
    have hstep : Thread.go ⟨[.frame (.outer u h)], .exec u value r.work⟩ w =
        Work.execStep w [.frame (.outer u h)] u value
          [.perform (.insert r.sku r.quantity), .defer true [.perform .send]]
          (.perform (.check r.sku)) := rfl
    rw [hstep]
    cases hcheck : w.host.check r.sku with
    | error fault =>
      obtain ⟨sku⟩ := fault
      rw [execStep_refused (act_check_error hcheck)]
      exact ⟨_, _, _, .inl rfl, .same .turnedDown hh hw⟩
    | ok _ =>
      rw [execStep_answered (act_check_ok hcheck)]
      exact ⟨_, _, _, .inl rfl, .same .inserting hh hw⟩
  | inserting => exact ⟨_, _, _, .inl rfl, .keep .deferring hh rfl (.insert _)⟩
  | @deferring u h id =>
    obtain ⟨hu, hunit⟩ := hh u _ rfl
    exact ⟨_, _, _, .inl rfl, defer_goes hu hunit .deferred⟩
  | deferred => exact ⟨_, _, _, .inl rfl, .same .worked hh hw⟩
  | @worked u h id =>
    -- Nobody else has touched the unit: it is not cancelled, and its context holds the event.
    obtain ⟨hu, hunit⟩ := hh u _ rfl
    refine ⟨_, none, .inserted id, .inl rfl, ?_⟩
    change Goes r (some u) w (.inserted id) (Work.closeScope w [] u h (.ok (.int id))) none _
    rw [closeScope_withEvent hunit]
    exact closing_goes hu (.commit ..) _
  | @turnedDown u h sku =>
    obtain ⟨hu, hunit⟩ := hh u _ rfl
    refine ⟨_, none, .nothing, .inl rfl, ?_⟩
    change Goes r (some u) w .nothing
      (Work.closeScope w [] u h (.error (.fault (.outOfStock sku)))) none .nothing
    rw [closeScope_atWork hunit]
    exact closing_goes hu (.rollback ..) _
  | @closing due failure call s f hc hf =>
    -- From here on all that is needed is kept in the call to the source.
    rcases hf with rfl | rfl
    · exact ⟨_, _, _, .inl rfl, .same (.closing hc (.inr rfl)) hh hw⟩
    · by_cases hdue : due ≤ w.now
      · obtain ⟨hstage, hsettled⟩ := settle_stage (r := r) (w := w) hc failure
        have hlook : Thread.go ⟨[], .enter (.closing due failure call)⟩ w =
            Work.settle w [] failure call := if_pos hdue
        rw [hlook]
        exact ⟨_, _, _, .inl rfl, .free hstage hsettled⟩
      · have hlook : Thread.go ⟨[], .enter (.closing due failure call)⟩ w =
            ⟨w, [], .pause (.closing due failure call)⟩ := if_neg hdue
        rw [hlook]
        exact ⟨_, _, _, .inl rfl, .free (.closing hc (.inl rfl)) hw⟩
  | sending => exact ⟨_, _, _, .inl rfl, .keep .sent hh rfl (.send ..)⟩
  | sent => exact ⟨_, _, _, .inl rfl, .same .told hh hw⟩
  | told => exact ⟨_, _, _, .inl rfl, .free (.returned (.placed _)) ((hw.letGo _).mark _)⟩
  | returned hl => exact ⟨_, _, _, .inl rfl, .same (.returned hl) hh hw⟩

end Steps

/-! ## The return -/

/-- A call that has returned has left what goes with its outcome. -/
theorem Stage.leaves {r : Request} {slot : Slot} {s : Share} {outcome : Outcome host}
    (hs : Stage r slot s (.ended outcome)) : Leaves outcome s := by
  generalize ht : Thread.ended outcome = t at hs
  cases hs with
  | returned hl =>
    cases ht
    exact hl
  | waiting hf => rcases hf with rfl | rfl <;> cases ht
  | closing hc hf => rcases hf with rfl | rfl <;> cases ht
  | _ => cases ht

theorem Leaves.isOk {outcome : Outcome host} {s : Share} (h : Leaves outcome s) :
    outcome.isOk = s.isAnnounced := by
  cases h <;> rfl

end BootEngine.Shop
