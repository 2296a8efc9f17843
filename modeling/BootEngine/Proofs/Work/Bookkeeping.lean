import BootEngine.Proofs.Work.Nesting

/-!
# Steps as acts

What each step of a run does to its ledger, as acts one after another. The restrictions of the acts
of units that are used in order come from the run: a scope of such a unit asks for a transaction
only while no other one waits or works, and when its work ends or is cut off, no nested scope is
left.

Contents:
* `settle_acts`, `closeScope_acts`, `enterScope_acts` and the like: the functions of the machine.
* `Paused.abandon_acts`: dropping a suspended computation.
* `Machine.step_acts`: a step of a run.
* `World.runBackground_acts`: the rollbacks in the background.
-/

namespace BootEngine.Work

open Transaction (Terminal Handle Source Context)

variable {H : Host} {T D : UnitId → Prop}

/-! ## What the states of a run hold -/

section Holding

variable (w : World H) (layers : List (Layer H))

@[simp] theorem ledger_finish (outcome : Outcome H) :
    (⟨w, layers, .finish outcome⟩ : Machine H).ledger = w.ledger (Layer.itemsAll layers) :=
  congrArg w.ledger (Multiset.zero_add _)

@[simp] theorem ledger_exec (u : UnitId) (value : Value) (steps : List (Step H)) :
    (⟨w, layers, .exec u value steps⟩ : Machine H).ledger = w.ledger (Layer.itemsAll layers) :=
  congrArg w.ledger (Multiset.zero_add _)

@[simp] theorem ledger_unwind :
    (⟨w, layers, .unwind⟩ : Machine H).ledger = w.ledger (Layer.itemsAll layers) :=
  congrArg w.ledger (Multiset.zero_add _)

@[simp] theorem ledger_enter (p : Paused H) :
    (⟨w, layers, .enter p⟩ : Machine H).ledger = w.ledger (p.items + Layer.itemsAll layers) := rfl

@[simp] theorem ledger_pause (p : Paused H) :
    (⟨w, layers, .pause p⟩ : Machine H).ledger = w.ledger (p.items + Layer.itemsAll layers) := rfl

@[simp] theorem itemsAll_frame (f : Frame H) :
    Layer.itemsAll (.frame f :: layers) = f.items + Layer.itemsAll layers := rfl

@[simp] theorem itemsAll_joining (u : UnitId) (done todo : List (Branch H (Paused H))) :
    Layer.itemsAll (.joining u done todo :: layers) =
      Paused.itemsAll done + Paused.itemsAll todo + Layer.itemsAll layers := rfl

theorem Paused.itemsAll_append (bs cs : List (Branch H (Paused H))) :
    Paused.itemsAll (bs ++ cs) = Paused.itemsAll bs + Paused.itemsAll cs := by
  induction bs with
  | nil => exact (Multiset.zero_add _).symm
  | cons b rest ih =>
    cases b with
    | idle steps => exact ih
    | finished => exact ih
    | paused p => rw [List.cons_append, Paused.itemsAll, ih, Paused.itemsAll, Multiset.add_assoc]

theorem Paused.itemsAll_reverse (bs : List (Branch H (Paused H))) :
    Paused.itemsAll bs.reverse = Paused.itemsAll bs := by
  induction bs with
  | nil => rfl
  | cons b rest ih =>
    have hb : Paused.itemsAll (b :: rest) = Paused.itemsAll [b] + Paused.itemsAll rest :=
      Paused.itemsAll_append [b] rest
    rw [List.reverse_cons, Paused.itemsAll_append, ih, hb, Multiset.add_comm]

/-- Looking at the branches of a join changes nothing in the ledger. -/
theorem ledger_visit (u : UnitId) (done todo : List (Branch H (Paused H))) :
    (visit w layers u done todo).ledger =
      w.ledger (Paused.itemsAll done + Paused.itemsAll todo + Layer.itemsAll layers) := by
  induction todo generalizing done with
  | nil =>
    unfold visit
    split
    · next hall =>
      rw [ledger_finish, Paused.itemsAll_of_all_finished hall]
      exact congrArg w.ledger (by simp [Paused.itemsAll])
    · rw [ledger_pause, Paused.items, Paused.itemsAll_reverse]
      exact congrArg w.ledger (by simp [Paused.itemsAll])
  | cons b rest ih =>
    cases b with
    | finished => exact ih (.finished :: done)
    | idle steps => exact ledger_exec ..
    | paused p =>
      refine congrArg w.ledger ?_
      show p.items + (Paused.itemsAll done + Paused.itemsAll rest + _) = _ + (p.items + _) + _
      rw [← Multiset.add_assoc, ← Multiset.add_assoc, Multiset.add_comm p.items,
        Multiset.add_assoc (Paused.itemsAll done)]

end Holding

/-! ## Ending an outermost scope -/

section Ending

variable {w : World H} {layers : List (Layer H)}

theorem nextEffect_acts (held : List Handle) (u : UnitId) (h : Handle) (index : Nat)
    (effects : List (List (Step H))) (value : Value) :
    Acts T D (w.ledger (.effects u h index effects value ::ₘ Layer.itemsAll layers))
      (nextEffect w layers held u h index effects value).ledger := by
  cases effects with
  | nil =>
    refine .single ?_
    have hact := Act.finishEffects (T := T) (D := D)
      (l := w.ledger (.effects u h index [] value ::ₘ Layer.itemsAll layers)) rfl
    simpa [nextEffect, returnFrom] using hact
  | cons effect rest =>
    refine .single ?_
    have hact := Act.startEffect (T := T) (D := D)
      (l := w.ledger (.effects u h index (effect :: rest) value ::ₘ Layer.itemsAll layers)) rfl
    simpa [nextEffect, Frame.items] using hact

theorem settle_acts (failure : Option String) (call : Closing H) :
    Acts T D (w.ledger (call.item ::ₘ Layer.itemsAll layers))
      (settle w layers failure call).ledger := by
  cases call with
  | commit held u h effects value =>
    cases failure with
    | none =>
      refine .head ?_ (nextEffect_acts held u h 0 effects value)
      exact Act.committed (l := w.ledger (.committing u h effects value ::ₘ _)) rfl
    | some reason =>
      refine .single ?_
      have hact := Act.commitFailed (T := T) (D := D) reason
        (l := w.ledger (.committing u h effects value ::ₘ Layer.itemsAll layers)) rfl
      simpa [settle, returnFrom, Closing.item] using hact
  | rollback held u h outcome =>
    refine .single ?_
    have hact := Act.rolledBack (T := T) (D := D) failure
      (l := w.ledger (.rollingBack u h outcome ::ₘ Layer.itemsAll layers)) rfl
    simpa [settle, returnFrom, Closing.item] using hact
  | direct u t h value rest =>
    refine .single ?_
    have hact := Act.directEnded (T := T) (D := D) t failure
      (l := w.ledger (.direct u h ::ₘ Layer.itemsAll layers)) rfl
    have hrecord := (w.noteEnded t h failure).ledger_record (Layer.itemsAll layers)
      (e := .finished t failure) rfl
    simpa [settle, hrecord, Closing.item] using hact

/-- A call that ends a transaction is made; if it is answered at once, what follows is done, too. -/
theorem startClosing_acts (call : Closing H) :
    Acts T D ((w.ledger (call.item ::ₘ Layer.itemsAll layers)).note
        (.ending call.terminal call.handle)) (startClosing w layers call).ledger := by
  have hstart := w.ledger_startFinish (call.item ::ₘ Layer.itemsAll layers) call.terminal
    call.handle
  unfold startClosing
  dsimp only
  split
  · rw [← hstart]
    exact settle_acts _ call
  · rw [ledger_pause, Paused.items, Multiset.singleton_add, hstart]

theorem closeScope_acts (u : UnitId) (h : Handle) (outcome : Outcome H)
    (hT : T u → nesteds u (Layer.itemsAll layers) = 0) :
    Acts T D (w.ledger (.outer u h ::ₘ Layer.itemsAll layers))
      (closeScope w layers u h outcome).ledger := by
  unfold closeScope
  split
  · next hx =>
    refine .single ?_
    have hact := Act.stray (T := T) (D := D) (u := u) (h := h)
      (l := w.ledger (.outer u h ::ₘ Layer.itemsAll layers)) rfl hx
    simpa [returnFrom] using hact
  · next c hx =>
    have hact := Act.close (T := T) (D := D) (u := u) (h := h) outcome
      (l := w.ledger (.outer u h ::ₘ Layer.itemsAll layers)) rfl hx hT
    -- The act names what the scope goes on with; the machine starts that very call.
    have hgo : ∀ (w' : World H) (call : Closing H),
        (∀ s, w'.ledger s = (w.endWork u h outcome).ledger s) →
        call.item = Item.ofWork u h c (w.isCancelled u) outcome →
        call.terminal = (Item.ofWork u h c (w.isCancelled u) outcome).terminal →
        call.handle = h →
        Acts T D (w.ledger (.outer u h ::ₘ Layer.itemsAll layers))
          (startClosing w' layers call).ledger := by
      intro w' call hw hitem hterminal hhandle
      refine .head hact ?_
      have hcall : Acts T D _ (startClosing w' layers call).ledger := startClosing_acts call
      rw [hw, hitem, hterminal, hhandle, World.ledger_endWork] at hcall
      exact hcall
    cases outcome with
    | error e => exact hgo _ (.rollback [h, c.handle] u h (.error e)) (fun _ => rfl) rfl rfl rfl
    | ok value =>
      dsimp only
      split
      · next hc =>
        have hwork : Item.ofWork u h c (w.isCancelled u) (.ok value) =
            .rollingBack u h (.error (.transaction .cancelled)) := by
          simp only [Item.ofWork, hc, if_true]
        exact hgo _ _ (fun _ => rfl) hwork.symm (congrArg Item.terminal hwork.symm) rfl
      · next hc =>
        split
        · next hr =>
          have hwork : Item.ofWork u h c (w.isCancelled u) (.ok value) =
              .rollingBack u h (.error (.transaction .rollbackOnly)) := by
            simp only [Item.ofWork, hc, hr, if_true]
            rfl
          exact hgo _ _ (fun _ => rfl) hwork.symm (congrArg Item.terminal hwork.symm) rfl
        · next hr =>
          have hwork : Item.ofWork u h c (w.isCancelled u) (.ok value) =
              .committing u h c.effects value := by
            simp only [Item.ofWork, hc, hr]
            rfl
          exact hgo _ _ (fun _ => rfl) hwork.symm (congrArg Item.terminal hwork.symm) rfl

end Ending

/-! ## Beginning a scope -/

section Beginning

variable {w : World H} {layers : List (Layer H)}

theorem Ledger.upTo_openContext (l : Ledger H) (u : UnitId) (h n : Handle) :
    (l.upTo n).openContext u h = (l.openContext u h).upTo n := by
  have hcontexts : (l.upTo n).contexts u = l.contexts u := rfl
  unfold Ledger.openContext
  dsimp only
  rw [hcontexts]
  cases l.contexts u <;> rfl

theorem openScope_acts {u : UnitId} {p : Option Handle} {h : Handle} (source : Source)
    (body : List (Step H)) (hc : w.isCancelled u = false)
    (hp : p = some h ∧ nextHandle source = nextHandle w.source ∨
      p = none ∧ h = nextHandle w.source ∧ nextHandle source = nextHandle w.source + 1) :
    Acts T D (w.ledger (.acquiring u p ::ₘ Layer.itemsAll layers))
      (openScope { w with source } layers u h body).ledger := by
  refine .single ?_
  have hact := Act.serve (T := T) (D := D) (u := u) (p := p) (h := h) (n := nextHandle source)
    (l := w.ledger (.acquiring u p ::ₘ Layer.itemsAll layers)) rfl hc hp
  simpa [openScope, Frame.items, Ledger.upTo_openContext] using hact

theorem failUnserved_acts (u : UnitId) (p : Option Handle) (e : TransactionError)
    (he : EndsWaiting (w.isCancelled u) e) :
    Acts T D (w.ledger (.acquiring u p ::ₘ Layer.itemsAll layers))
      (failUnserved w layers u e).ledger := by
  refine .single ?_
  have hact := Act.unserved (T := T) (D := D) (u := u) (p := p) e
    (l := w.ledger (.acquiring u p ::ₘ Layer.itemsAll layers)) rfl he
  simpa [failUnserved, failWith] using hact

/-- An outermost scope that looks for its transaction goes on waiting, or gives up, or opens. -/
theorem tryAcquire_acts (u : UnitId) (body : List (Step H)) (limit : Option (Nat × Nat))
    (wait : Acquiring) (hc : w.isCancelled u = false) :
    Acts T D (w.ledger (.acquiring u wait.promise ::ₘ Layer.itemsAll layers))
      (tryAcquire w layers u body limit wait).ledger := by
  have hwait : w.ledger (.acquiring u wait.promise ::ₘ Layer.itemsAll layers) =
      (⟨w, layers, .pause (.acquiring u body limit wait)⟩ : Machine H).ledger := by
    rw [ledger_pause, Paused.items, Multiset.singleton_add]
  unfold tryAcquire
  split
  · next hready =>
    cases wait with
    | ticket number =>
      obtain ⟨hh, hn⟩ := claim_of_isGranted hready
      exact openScope_acts _ body hc (.inr ⟨rfl, hh, hn⟩)
    | answer due reply =>
      cases reply with
      | ok h => exact openScope_acts w.source body hc (.inl ⟨rfl, rfl⟩)
      | error reason => exact failUnserved_acts u none (.beginFailed reason) hc
  · split
    · next due ms =>
      split
      · have hstill : (wait.withdraw w).isCancelled u = false := by cases wait <;> exact hc
        have hgive : Acts T D _
            (failUnserved (wait.withdraw w) layers u (.acquireTimeout ms)).ledger :=
          failUnserved_acts u wait.promise (.acquireTimeout ms) hstill
        rwa [World.ledger_withdraw] at hgive
      · exact hwait ▸ .refl
    · exact hwait ▸ .refl

theorem beginOutermost_acts (u : UnitId) (body : List (Step H)) (hc : w.isCancelled u = false)
    (hx : w.context? u = none) (hT : T u → seats u (Layer.itemsAll layers) = 0) :
    Acts T D (w.ledger (Layer.itemsAll layers)) (beginOutermost w layers u body).ledger := by
  have hrequest := fun s => (w.ledger_request s u).1
  have hanswer := (w.ledger_request 0 u).2
  have hasked : (w.request u).2.isCancelled u = false :=
    (congrFun (congrArg Ledger.cancelled (hrequest 0)) u).trans hc
  -- The act that asks, for the promise that comes with the answer.
  have hask : ∀ p n, p = none ∧ nextHandle w.source ≤ n ∨
      p = some (nextHandle w.source) ∧ n = nextHandle w.source + 1 →
      nextHandle (w.request u).2.source = n →
      Act T D (w.ledger (Layer.itemsAll layers))
        ((w.request u).2.ledger (.acquiring u p ::ₘ Layer.itemsAll layers)) := by
    intro p n hp hn
    rw [hrequest, hn]
    exact Act.request (l := w.ledger (Layer.itemsAll layers)) hc hx hp hT
  unfold beginOutermost
  dsimp only
  split
  · next h heq =>
    simp only [heq] at hanswer
    obtain ⟨rfl, hn⟩ := hanswer
    refine .head (hask _ _ (.inr ⟨rfl, rfl⟩) hn) ?_
    exact openScope_acts (w := (w.request u).2) (w.request u).2.source body hasked
      (.inl ⟨rfl, rfl⟩)
  · next number heq =>
    simp only [heq] at hanswer
    exact .head (hask _ _ (.inl ⟨rfl, Nat.le_refl _⟩) hanswer)
      (tryAcquire_acts u body _ (.ticket number) hasked)
  · next delay reply heq =>
    simp only [heq] at hanswer
    obtain ⟨hn, hreply⟩ := hanswer
    refine .head (hask _ _ ?_ hn) (tryAcquire_acts u body _ (.answer _ reply) hasked)
    cases reply with
    | ok h => exact .inr ⟨congrArg some (hreply h rfl), rfl⟩
    | error reason => exact .inl ⟨rfl, Nat.le_succ _⟩

theorem enterScope_acts (u : UnitId) (body : List (Step H))
    (hT : T u → w.context? u = none → seats u (Layer.itemsAll layers) = 0) :
    Acts T D (w.ledger (Layer.itemsAll layers)) (enterScope w layers u body).ledger := by
  unfold enterScope
  split
  · next hc =>
    refine .single ?_
    have hact := Act.refuse (T := T) (D := D) (l := w.ledger (Layer.itemsAll layers)) hc
    simpa [failWith] using hact
  · next hc =>
    split
    · next c hx =>
      refine .single ?_
      have hact := Act.enterNested (T := T) (D := D) (l := w.ledger (Layer.itemsAll layers)) hx
      simpa [Frame.items] using hact
    · next hx =>
      exact beginOutermost_acts u body (Bool.not_eq_true _ ▸ hc) hx fun hu => hT hu hx

end Beginning

/-! ## Dropping -/

/-- The guard of a frame that is left. -/
theorem Frame.unwind_acts (f : Frame H) (w : World H) (r : Multiset (Item H))
    (hT : ∀ u, T u → outers u f.items ≠ 0 → nesteds u r = 0) :
    Acts T D (w.ledger (f.items + r)) ((f.unwind w).ledger r) := by
  have hnone : ∀ w' : World H, w'.ledger (0 + r) = w'.ledger r := fun w' =>
    congrArg w'.ledger (Multiset.zero_add r)
  cases f with
  | after u how value rest => exact hnone w ▸ .refl
  | timeout u due value rest => exact hnone w ▸ .refl
  | catchPanic u value rest => exact hnone w ▸ .refl
  | nested u h =>
    refine .single ?_
    have hact := Act.leaveNested (T := T) (D := D) none (l := w.ledger (.nested u h ::ₘ r)) rfl
    simpa [Frame.items, Frame.unwind] using hact
  | outer u h =>
    refine .single ?_
    have hact := Act.interrupt (T := T) (D := D) (l := w.ledger (.outer u h ::ₘ r)) rfl
      fun hu => hT u hu (by simp [Frame.items, Item.isOuter])
    simpa [Frame.items, Frame.unwind] using hact
  | effects held u h index rest value =>
    refine .single ?_
    have hact := Act.dropEffects (T := T) (D := D)
      (l := w.ledger (.effects u h (index + 1) rest value ::ₘ r)) rfl
    simpa [Frame.items, Frame.unwind] using hact

/-- A computation can be dropped beside `r` when units that are used in order have no nested scope
    there and none uncovered inside it, if their outermost scope is dropped. -/
structure Droppable (T : UnitId → Prop) (s : Multiset (Item H)) (loose : UnitId → Nat)
    (r : Multiset (Item H)) : Prop where
  alone : ∀ u, T u → outers u s ≤ 1
  covered : ∀ u, T u → outers u s ≠ 0 → loose u = 0
  apart : ∀ u, T u → outers u s ≠ 0 → nesteds u r = 0

/-- What stands inside a frame is dropped beside the frame. -/
theorem Droppable.inside {f : Frame H} {s r : Multiset (Item H)} {loose : UnitId → Nat}
    (h : Droppable T (f.items + s) (fun u => f.expose u (loose u)) r) :
    Droppable T s loose (f.items + r) := by
  have houters : ∀ u, outers u (f.items + s) = outers u f.items + outers u s := fun u =>
    outers_add u f.items s
  have hframe : ∀ u, T u → outers u s ≠ 0 → outers u f.items = 0 := by
    intro u hu hs
    have := h.alone u hu
    rw [houters] at this
    omega
  have hcover : ∀ u, T u → outers u s ≠ 0 → loose u + nesteds u f.items = 0 := by
    intro u hu hs
    rw [← f.expose_eq_of_outers_eq_zero (loose u) (hframe u hu hs)]
    exact h.covered u hu (by rw [houters]; omega)
  refine ⟨fun u hu => ?_, fun u hu hs => ?_, fun u hu hs => ?_⟩
  · have := h.alone u hu
    rw [houters] at this
    omega
  · have := hcover u hu hs
    omega
  · have hr := h.apart u hu (by rw [houters]; omega)
    have := hcover u hu hs
    rw [nesteds_add]
    omega

/-- The first of two computations is dropped beside the second one. -/
theorem Droppable.first {s t r : Multiset (Item H)} {j k : UnitId → Nat}
    (h : Droppable T (s + t) (fun u => j u + k u) r)
    (ht : ∀ u, T u → outers u t = 0 → k u = nesteds u t) : Droppable T s j (t + r) := by
  have hsum : ∀ u, outers u (s + t) = outers u s + outers u t := fun u => outers_add u s t
  refine ⟨fun u hu => ?_, fun u hu hs => ?_, fun u hu hs => ?_⟩
  · have := h.alone u hu
    rw [hsum] at this
    omega
  · exact Nat.eq_zero_of_add_eq_zero_right (h.covered u hu (by rw [hsum]; omega))
  · have halone := h.alone u hu
    rw [hsum] at halone
    have hzero := h.covered u hu (by rw [hsum]; omega)
    have hr := h.apart u hu (by rw [hsum]; omega)
    rw [nesteds_add, ← ht u hu (by omega)]
    omega

/-- The second of two computations can be dropped when the first one is gone. -/
theorem Droppable.second {s t r : Multiset (Item H)} {j k : UnitId → Nat}
    (h : Droppable T (s + t) (fun u => j u + k u) r) : Droppable T t k r := by
  have hsum : ∀ u, outers u (s + t) = outers u s + outers u t := fun u => outers_add u s t
  refine ⟨fun u hu => ?_, fun u hu ht => ?_, fun u hu ht => ?_⟩
  · have := h.alone u hu
    rw [hsum] at this
    omega
  · exact Nat.eq_zero_of_add_eq_zero_left (h.covered u hu (by rw [hsum]; omega))
  · exact h.apart u hu (by rw [hsum]; omega)

theorem Closing.call?_item (call : Closing H) : call.item.call? = some call.handle := by
  cases call <;> rfl

mutual

/-- Dropping a suspended computation: what it waits for is given up, then the guards of its frames
    run. -/
theorem Paused.abandon_acts (p : Paused H) (w : World H) (r : Multiset (Item H))
    (hd : Droppable T p.items (fun u => p.loose u) r) :
    Acts T D (w.ledger (p.items + r)) ((p.abandon w).ledger r) := by
  match p with
  | .sleeping _ => exact congrArg w.ledger (Multiset.zero_add r) ▸ .refl
  | .yielded => exact congrArg w.ledger (Multiset.zero_add r) ▸ .refl
  | .acquiring u body limit wait =>
    refine .single ?_
    have hact := Act.withdraw (T := T) (D := D) (l := w.ledger (.acquiring u wait.promise ::ₘ r)) rfl
    simpa [Paused.items, Paused.abandon] using hact
  | .closing due failure call =>
    refine .single ?_
    have hact := Act.dropCall (T := T) (D := D) (l := w.ledger (call.item ::ₘ r)) rfl call.call?_item
    simpa [Paused.items, Paused.abandon] using hact
  | .under frame inner =>
    have hinner := inner.abandon_acts w (frame.items + r) hd.inside
    have hframe := frame.unwind_acts (T := T) (D := D) (inner.abandon w) r fun u hu hf =>
      hd.apart u hu (by rw [Paused.items, outers_add]; omega)
    have hitems : (Paused.under frame inner).items + r = inner.items + (frame.items + r) := by
      rw [Paused.items, Multiset.add_comm frame.items, Multiset.add_assoc]
    rw [hitems]
    exact hinner.trans hframe
  | .branches _ items => exact Paused.abandonAll_acts items w r hd

theorem Paused.abandonAll_acts (items : List (Branch H (Paused H))) (w : World H)
    (r : Multiset (Item H))
    (hd : Droppable T (Paused.itemsAll items) (fun u => Paused.looseAll u items) r) :
    Acts T D (w.ledger (Paused.itemsAll items + r)) ((Paused.abandonAll items w).ledger r) := by
  match items with
  | [] => exact congrArg w.ledger (Multiset.zero_add r) ▸ .refl
  | .paused p :: rest =>
    have hp := p.abandon_acts w (Paused.itemsAll rest + r)
      (hd.first fun u _ => Paused.looseAll_eq_of_outers_eq_zero rest)
    have hrest := Paused.abandonAll_acts rest (p.abandon w) r hd.second
    rw [Paused.itemsAll, Multiset.add_assoc]
    exact hp.trans hrest
  | .idle _ :: rest => exact Paused.abandonAll_acts rest w r hd
  | .finished :: rest => exact Paused.abandonAll_acts rest w r hd

end

/-! ## Steps of programs -/

section Steps

variable {w : World H} {layers : List (Layer H)}

theorem Frame.items_add_of_eq_zero {f : Frame H} (hf : f.items = 0) (s : Multiset (Item H)) :
    f.items + s = s := by
  rw [hf, Multiset.zero_add]

theorem itemsAll_of_items_eq_zero {f : Frame H} (hf : f.items = 0) :
    Layer.itemsAll (.frame f :: layers) = Layer.itemsAll layers := by
  rw [itemsAll_frame, f.items_add_of_eq_zero hf]

/-- A scope begins inside a frame that holds nothing. -/
theorem enterScope_acts_in {f : Frame H} (hf : f.items = 0) (u : UnitId) (body : List (Step H))
    (hT : T u → w.context? u = none → seats u (Layer.itemsAll layers) = 0) :
    Acts T D (w.ledger (Layer.itemsAll layers))
      (enterScope w (.frame f :: layers) u body).ledger := by
  have hacts : _ → Acts T D _ (enterScope w (.frame f :: layers) u body).ledger :=
    enterScope_acts u body
  rw [itemsAll_of_items_eq_zero hf] at hacts
  exact hacts hT

theorem execStep_acts (v : UnitId) (value : Value) (rest : List (Step H)) (s : Step H)
    (hopens : ∀ u, T u → s.opensOn? w v = some u → w.context? u = none →
      seats u (Layer.itemsAll layers) = 0)
    (hfinish : ∀ t, s = .finish t → ¬ D v) :
    Acts T D (w.ledger (Layer.itemsAll layers)) (execStep w layers v value rest s).ledger := by
  have hfresh : T w.units.length → s.opensOn? w v = some w.units.length →
      w.addUnit.2.context? w.units.length = none →
      seats w.units.length (Layer.itemsAll layers) = 0 := fun hu ho hx =>
    hopens _ hu ho (w.context?_addUnit _ ▸ hx)
  cases s with
  | perform action =>
    simp only [execStep]
    split
    · exact (ledger_exec ..) ▸ .refl
    · exact (ledger_finish ..) ▸ .refl
  | note v => exact (ledger_exec ..) ▸ .refl
  | announce id => exact (ledger_exec ..) ▸ .refl
  | probe what =>
    simp only [execStep, ledger_exec]
    cases what with
    | state => rw [World.ledger_record _ _ (by unfold probe; dsimp only; split <;> rfl)]
    | describe => exact .refl
    | transaction => exact .refl
    | token => exact .refl
    | source => exact .refl
  | give v => exact (ledger_finish ..) ▸ .refl
  | fail fault => exact (ledger_finish ..) ▸ .refl
  | panic => exact (ledger_unwind ..) ▸ .refl
  | sleep ms =>
    simp only [execStep]
    split
    · exact (ledger_exec ..) ▸ .refl
    · rw [ledger_pause, itemsAll_of_items_eq_zero rfl, Paused.items, Multiset.zero_add]
  | yield =>
    simp only [execStep]
    rw [ledger_pause, itemsAll_of_items_eq_zero rfl, Paused.items, Multiset.zero_add]
  | cancel unit =>
    refine .single ?_
    cases unit with
    | none =>
      simp only [execStep, ledger_exec, World.ledger_cancel]
      exact .cancel v
    | some name =>
      simp only [execStep, ledger_exec, World.ledger_cancel, World.ledger_named]
      exact .cancel _
  | armCommitFailure =>
    refine .single ?_
    simp only [execStep, ledger_exec, World.ledger_source]
    exact .advance (Nat.le_of_eq (nextHandle_armCommitFailure _).symm)
  | finish t =>
    simp only [execStep]
    split
    · exact (ledger_finish ..) ▸ .refl
    · next c hx =>
      exact .head (Act.direct (l := w.ledger (Layer.itemsAll layers)) t hx (hfinish t rfl))
        (startClosing_acts (w := w.mark (.direct v c.handle)) (.direct v t c.handle value rest))
  | scope place report body =>
    cases place with
    | here => exact enterScope_acts_in rfl v body fun hu => hopens v hu rfl
    | fresh =>
      have hacts : Acts T D (w.addUnit.2.ledger (Layer.itemsAll layers)) _ :=
        enterScope_acts_in (f := .after v report value rest) rfl w.units.length body
          fun hu => hfresh hu rfl
      rwa [World.ledger_addUnit] at hacts
  | within place body =>
    cases place with
    | here => exact enterScope_acts v body fun hu => hopens v hu rfl
    | fresh =>
      have hacts : Acts T D (w.addUnit.2.ledger (Layer.itemsAll layers)) _ :=
        enterScope_acts w.units.length body fun hu => hfresh hu rfl
      rwa [World.ledger_addUnit] at hacts
  | timeout ms body => exact enterScope_acts_in rfl v body fun hu => hopens v hu rfl
  | catchPanic body => exact enterScope_acts_in rfl v body fun hu => hopens v hu rfl
  | defer strict effect =>
    simp only [execStep]
    split
    · next c hx =>
      refine .single ?_
      rw [ledger_exec, World.ledger_deferEffect]
      exact .defer effect hx
    · split
      · exact (ledger_finish ..) ▸ .refl
      · exact (ledger_exec ..) ▸ .refl
  | onUnit name body =>
    simp only [execStep]
    rw [ledger_exec, itemsAll_of_items_eq_zero rfl, World.ledger_named]
  | iterate count body =>
    cases count with
    | zero => exact (ledger_exec ..) ▸ .refl
    | succ count =>
      simp only [execStep]
      rw [ledger_exec, itemsAll_of_items_eq_zero rfl]
  | join branches =>
    simp only [execStep]
    rw [ledger_visit, itemsAll_of_items_eq_zero rfl, Paused.itemsAll_map_idle, Paused.itemsAll,
      Multiset.zero_add, Multiset.zero_add]

/-- What follows an inner computation that has ended. -/
theorem resume_acts (outcome : Outcome H) (f : Frame H)
    (hT : ∀ u, T u → outers u f.items ≠ 0 → nesteds u (Layer.itemsAll layers) = 0) :
    Acts T D (w.ledger (f.items + Layer.itemsAll layers)) (resume w layers outcome f).ledger := by
  cases f with
  | after u how value rest =>
    have hreport : ∀ s, (report w outcome how).1.ledger s = w.ledger s := by
      intro s
      cases how <;> cases outcome <;> rfl
    simp only [resume]
    split
    · rw [ledger_finish, hreport, Frame.items_add_of_eq_zero rfl]
    · rw [ledger_exec, hreport, Frame.items_add_of_eq_zero rfl]
  | nested u h =>
    refine .single ?_
    have hact := Act.leaveNested (T := T) (D := D) (some (nestedOutcome w u outcome))
      (l := w.ledger (.nested u h ::ₘ Layer.itemsAll layers)) rfl
    simpa [resume, Frame.items] using hact
  | outer u h =>
    exact closeScope_acts u h outcome fun hu => hT u hu (by simp [Frame.items, Item.isOuter])
  | effects held u h index rest value =>
    cases outcome with
    | ok v => exact nextEffect_acts held u h (index + 1) rest value
    | error e =>
      exact nextEffect_acts (w := w.record (.alert (.effectFailed index (e.message H)))) held u h
        (index + 1) rest value
  | timeout u due value rest =>
    simp only [resume]
    rw [ledger_exec, World.ledger_record _ _ rfl, Frame.items_add_of_eq_zero rfl]
  | catchPanic u value rest =>
    simp only [resume]
    rw [ledger_exec, World.ledger_record _ _ rfl, Frame.items_add_of_eq_zero rfl]

theorem enter_acts (p : Paused H)
    (hd : ∀ f q, p = .under f q →
      Droppable T q.items (fun u => q.loose u) (f.items + Layer.itemsAll layers)) :
    Acts T D (w.ledger (p.items + Layer.itemsAll layers)) (enter w layers p).ledger := by
  cases p with
  | sleeping due =>
    simp only [enter]
    split
    · rw [ledger_finish, Paused.items, Multiset.zero_add]
    · exact .refl
  | yielded =>
    simp only [enter]
    rw [ledger_finish, Paused.items, Multiset.zero_add]
  | acquiring u body limit wait =>
    simp only [enter]
    split
    · next hc =>
      have hcancelled : (wait.withdraw w).isCancelled u = true := by cases wait <;> exact hc
      have hgive : Acts T D _ (failUnserved (wait.withdraw w) layers u .cancelled).ledger :=
        failUnserved_acts u wait.promise .cancelled hcancelled
      rwa [World.ledger_withdraw] at hgive
    · next hc => exact tryAcquire_acts u body limit wait (Bool.eq_false_of_not_eq_true hc)
  | closing due failure call =>
    simp only [enter]
    split
    · exact settle_acts failure call
    · exact .refl
  | under frame inner =>
    have hitems : (Paused.under frame inner).items + Layer.itemsAll layers =
        inner.items + (frame.items + Layer.itemsAll layers) := by
      rw [Paused.items, Multiset.add_comm frame.items, Multiset.add_assoc]
    rw [hitems]
    simp only [enter]
    split
    · have hdrop := inner.abandon_acts (D := D) w _ (hd frame inner rfl)
      simpa [failWith] using hdrop
    · exact .refl
  | branches u items =>
    simp only [enter]
    rw [ledger_visit, Paused.itemsAll, Multiset.zero_add, Paused.items]

theorem suspend_acts (p : Paused H) (f : Frame H)
    (hd : f.items = 0 → Droppable T p.items (fun u => p.loose u) (Layer.itemsAll layers)) :
    Acts T D (w.ledger (p.items + (f.items + Layer.itemsAll layers)))
      (suspend w layers p f).ledger := by
  have hitems : w.ledger (p.items + (f.items + Layer.itemsAll layers)) =
      (⟨w, layers, .pause (.under f p)⟩ : Machine H).ledger := by
    rw [ledger_pause, Paused.items, Multiset.add_comm f.items p.items, Multiset.add_assoc]
  cases f with
  | timeout u due value rest =>
    simp only [suspend]
    split
    · have hdrop := p.abandon_acts (D := D) w _ (hd rfl)
      rw [ledger_exec, World.ledger_record _ _ rfl, Frame.items_add_of_eq_zero rfl]
      exact hdrop
    · exact hitems ▸ .refl
  | after u how value rest => exact hitems ▸ .refl
  | nested u h => exact hitems ▸ .refl
  | outer u h => exact hitems ▸ .refl
  | effects held u h index rest value => exact hitems ▸ .refl
  | catchPanic u value rest => exact hitems ▸ .refl

theorem panicThrough_acts (f : Frame H)
    (hT : ∀ u, T u → outers u f.items ≠ 0 → nesteds u (Layer.itemsAll layers) = 0) :
    Acts T D (w.ledger (f.items + Layer.itemsAll layers)) (panicThrough w layers f).ledger := by
  have hunwind := f.unwind_acts (D := D) w (Layer.itemsAll layers) hT
  cases f with
  | catchPanic u value rest =>
    simp only [panicThrough]
    rw [ledger_exec, World.ledger_record _ _ rfl]
    exact hunwind
  | after u how value rest => exact (ledger_unwind ..) ▸ hunwind
  | nested u h => exact (ledger_unwind ..) ▸ hunwind
  | outer u h => exact (ledger_unwind ..) ▸ hunwind
  | effects held u h index rest value => exact (ledger_unwind ..) ▸ hunwind
  | timeout u due value rest => exact (ledger_unwind ..) ▸ hunwind

end Steps

/-! ## Steps of a run -/

/-- A unit's scopes stand in order: every nested scope is covered, at most one outermost scope waits
    or works, and the unit has a context exactly while one works. -/
structure Machine.IsTidy (u : UnitId) (m : Machine H) : Prop where
  covered : m.loose u = 0
  alone : seats u m.items ≤ 1
  working : m.world.context? u ≠ none ↔ outers u m.items ≠ 0

/-- Where at most one outermost scope works and everything is covered, what stands around the one
    that works has no nested scope. -/
theorem covered_around {u : UnitId} {layers : List (Layer H)} {k : Nat} {s : Multiset (Item H)}
    (hk : looseIn u layers k = 0) (ho : outers u s + outers u (Layer.itemsAll layers) ≤ 1)
    (hs : outers u s ≠ 0) : k = 0 ∧ nesteds u (Layer.itemsAll layers) = 0 := by
  rw [looseIn_eq_of_outers_eq_zero layers k (by omega)] at hk
  omega

theorem droppable_of_covered {layers : List (Layer H)} {s : Multiset (Item H)}
    {loose : UnitId → Nat}
    (h : ∀ u, T u → looseIn u layers (loose u) = 0 ∧
      outers u s + outers u (Layer.itemsAll layers) ≤ 1) :
    Droppable T s loose (Layer.itemsAll layers) where
  alone u hu := Nat.le_trans (Nat.le_add_right _ _) (h u hu).2
  covered u hu hs := (covered_around (h u hu).1 (h u hu).2 hs).1
  apart u hu hs := (covered_around (h u hu).1 (h u hu).2 hs).2

theorem outers_ne_zero_of_mem {u : UnitId} {h : Handle} {layers : List (Layer H)}
    (hm : .frame (.outer u h) ∈ layers) : outers u (Layer.itemsAll layers) ≠ 0 := by
  induction layers with
  | nil => simp at hm
  | cons l rest ih =>
    rw [Layer.itemsAll, outers_add]
    rcases List.mem_cons.mp hm with rfl | hr
    · simp [Layer.items, Frame.items, Item.isOuter]
    · have := ih hr
      omega

theorem Machine.outers_le_one {u : UnitId} {m : Machine H} (ht : m.IsTidy u) :
    outers u m.focus.items + outers u (Layer.itemsAll m.layers) ≤ 1 := by
  rw [← outers_add]
  exact Nat.le_trans (outers_le_seats u m.items) ht.alone

/-- A step of a run does a few acts, if the scopes of the units in `T` stand in order and nest. -/
theorem Machine.step_acts (m : Machine H) (ht : ∀ u, T u → m.IsTidy u)
    (ho : ∀ u, T u → m.Nests u) (hd : ∀ u, D u → m.finishesOn? ≠ some u) :
    Acts T D m.ledger m.step.ledger := by
  obtain ⟨w, layers, focus⟩ := m
  -- What stands around an outermost scope in the layer next to the focus.
  have hframe : ∀ {f : Frame H} {rest : List (Layer H)}, layers = .frame f :: rest →
      ∀ u, T u → outers u f.items ≠ 0 → nesteds u (Layer.itemsAll rest) = 0 := by
    intro f rest hl u hu hf
    subst hl
    have hone : outers u focus.items + outers u (Layer.itemsAll (.frame f :: rest)) ≤ 1 :=
      Machine.outers_le_one (ht u hu)
    rw [itemsAll_frame, outers_add] at hone
    have hcovered : looseIn u rest (f.expose u (focus.loose u)) = 0 := (ht u hu).covered
    exact (covered_around hcovered (Nat.le_trans (Nat.le_add_left _ _) hone) hf).2
  cases focus with
  | enter p =>
    refine enter_acts p fun f q hp => ?_
    subst hp
    have hdrop : Droppable T q.items (fun u => q.loose u) (Layer.itemsAll (.frame f :: layers)) := by
      refine droppable_of_covered fun u hu => ⟨(ht u hu).covered, ?_⟩
      have hone : outers u (f.items + q.items) + outers u (Layer.itemsAll layers) ≤ 1 :=
        Machine.outers_le_one (ht u hu)
      rw [outers_add] at hone
      rw [itemsAll_frame, outers_add]
      omega
    exact hdrop
  | exec v value steps =>
    have hitems : (⟨w, layers, .exec v value steps⟩ : Machine H).items = Layer.itemsAll layers :=
      Multiset.zero_add _
    cases steps with
    | nil => rw [ledger_exec, Machine.step, ledger_finish]
    | cons s rest =>
      rw [ledger_exec]
      refine execStep_acts v value rest s (fun u hu hs hx => ?_) fun t hs hv => ?_
      · rcases ho u hu hs with ⟨h, hin⟩ | hseats
        · have hworks := (ht u hu).working.mpr (by
            rw [hitems]
            exact outers_ne_zero_of_mem hin)
          exact absurd hx hworks
        · rwa [hitems] at hseats
      · subst hs
        exact hd v hv rfl
  | finish outcome =>
    cases layers with
    | nil => exact .refl
    | cons l layers =>
      rw [ledger_finish]
      cases l with
      | frame f => exact resume_acts outcome f (hframe rfl)
      | joining u done todo =>
        simp only [Machine.step]
        rw [ledger_visit, World.ledger_record _ _ rfl, itemsAll_joining, Paused.itemsAll]
  | unwind =>
    cases layers with
    | nil => exact .refl
    | cons l layers =>
      rw [ledger_unwind]
      cases l with
      | frame f => exact panicThrough_acts f (hframe rfl)
      | joining v done todo =>
        have hitems : Paused.itemsAll (done.reverse ++ todo) =
            Paused.itemsAll done + Paused.itemsAll todo := by
          rw [Paused.itemsAll_append, Paused.itemsAll_reverse]
        have hdrop := Paused.abandonAll_acts (T := T) (D := D) (done.reverse ++ todo) w
          (Layer.itemsAll layers) (droppable_of_covered fun u hu => ⟨?_, ?_⟩)
        · rw [hitems] at hdrop
          rw [itemsAll_joining]
          simpa only [Machine.step, ledger_unwind] using hdrop
        · have hcovered : looseIn u layers (0 + Paused.looseAll u done + Paused.looseAll u todo) = 0 :=
            (ht u hu).covered
          rwa [Nat.zero_add, ← Paused.looseAll_reverse, ← Paused.looseAll_append] at hcovered
        · have hone := Machine.outers_le_one (ht u hu)
          rw [hitems, ← outers_add]
          exact Nat.le_trans (Nat.le_add_left _ _) hone
  | pause p =>
    cases layers with
    | nil => exact .refl
    | cons l layers =>
      rw [ledger_pause]
      cases l with
      | frame f =>
        refine suspend_acts p f fun hf => droppable_of_covered fun u hu => ⟨?_, ?_⟩
        · have hcovered := (ht u hu).covered
          have hexpose := f.expose_eq_of_outers_eq_zero (p.loose u) (u := u) (by rw [hf]; rfl)
          rw [hf] at hexpose
          rw [show p.loose u = f.expose u (p.loose u) from hexpose.symm]
          exact hcovered
        · have hone : outers u p.items + outers u (Layer.itemsAll (.frame f :: layers)) ≤ 1 :=
            Machine.outers_le_one (ht u hu)
          rwa [itemsAll_of_items_eq_zero hf] at hone
      | joining u done todo =>
        simp only [Machine.step]
        rw [ledger_visit, itemsAll_joining, Paused.itemsAll]
        simp only [Multiset.add_assoc]
        exact .refl

/-- A suspended run that is dropped does a few acts. -/
theorem Machine.drop_acts {w : World H} {p : Paused H}
    (ht : ∀ u, T u → (⟨w, [], .pause p⟩ : Machine H).IsTidy u) :
    Acts T D (w.ledger p.items) ((p.abandon w).ledger 0) := by
  have hdrop := p.abandon_acts (T := T) (D := D) w (Layer.itemsAll [])
    (droppable_of_covered fun u hu => ⟨(ht u hu).covered, Machine.outers_le_one (ht u hu)⟩)
  rwa [Layer.itemsAll, Multiset.add_zero] at hdrop

/-! ## The background -/

namespace World

variable (s : Multiset (Item H))

/-- Sets the rollbacks in the background. -/
def withBackground (b : List Cleanup) (w : World H) : World H := { w with background := b }

theorem ledger_withBackground (w : World H) (b : List Cleanup) :
    (w.withBackground b).ledger s = { w.ledger s with background := (b : Multiset Cleanup) } := rfl

/-- Looking at one rollback in the background, beside others that are looked at later. -/
theorem pollCleanup_acts (w : World H) (c : Cleanup) (b : List Cleanup) :
    Acts T D ((w.withBackground (c :: (b ++ w.background))).ledger s)
      (((w.pollCleanup c).withBackground (b ++ (w.pollCleanup c).background)).ledger s) := by
  -- What is left of the rollback is put at the end of the background.
  have hperm : ∀ c' : Cleanup, ((b ++ (w.background ++ [c']) : List Cleanup) : Multiset Cleanup) =
      c' ::ₘ ((b ++ w.background : List Cleanup) : Multiset Cleanup) := by
    intro c'
    rw [← List.append_assoc]
    exact Multiset.coe_eq_coe.2 (List.perm_append_singleton _ _)
  have hend : ∀ (w' : World H) (h : Handle) (due : Nat) (failure : Option String),
      w'.background = w.background →
      Acts T D ({ w'.ledger s with background := .waiting h due failure ::ₘ
          ((b ++ w.background : List Cleanup) : Multiset Cleanup) })
        (((w'.endCleanup h failure).withBackground
          (b ++ (w'.endCleanup h failure).background)).ledger s) := by
    intro w' h due failure hw
    have hback : (w'.endCleanup h failure).background = w.background := by
      rw [← hw]
      cases failure <;> rfl
    rw [ledger_withBackground, hback, endCleanup, ledger_letGo, ledger_noteRollback]
    exact .single (Act.endCleanup (l := { w'.ledger s with background := .waiting h due failure ::ₘ
      ((b ++ w.background : List Cleanup) : Multiset Cleanup) }) rfl)
  cases c with
  | waiting h due failure =>
    simp only [pollCleanup]
    split
    · exact hend w h due failure rfl
    · rw [ledger_withBackground, ledger_withBackground, hperm]
      exact .refl
  | fresh h =>
    have hstart := w.ledger_startFinish s .rollback h
    have hback : (w.startFinish .rollback h).2.background = w.background := by
      show ((w.mark _).recordCall _).background = _
      unfold recordCall
      split <;> rfl
    have hact := Act.startCleanup (T := T) (D := D) (w.now + (w.startFinish .rollback h).1.delay)
      (w.startFinish .rollback h).1.failure
      (b := ((b ++ w.background : List Cleanup) : Multiset Cleanup))
      (l := (w.withBackground (.fresh h :: (b ++ w.background))).ledger s) rfl
    refine .head hact ?_
    simp only [pollCleanup]
    split
    · have hacts := hend (w.startFinish .rollback h).2 h
        (w.now + (w.startFinish .rollback h).1.delay) (w.startFinish .rollback h).1.failure hback
      rw [hstart] at hacts
      exact hacts
    · rw [ledger_withBackground _ _ (b ++ _)]
      dsimp only
      rw [hback, hperm]
      show Acts T D _ { (w.startFinish .rollback h).2.ledger s with background := _ }
      rw [hstart]
      exact .refl

/-- A look at the background does a few acts. -/
theorem runBackground_acts (w : World H) :
    Acts T D (w.ledger s) (w.runBackground.ledger s) := by
  have hfold : ∀ (cs : List Cleanup) (w : World H),
      Acts T D ((w.withBackground (cs ++ w.background)).ledger s)
        ((cs.foldl pollCleanup w).ledger s) := by
    intro cs
    induction cs with
    | nil => exact fun w => .refl
    | cons c rest ih =>
      intro w
      exact (pollCleanup_acts s w c rest).trans (ih (w.pollCleanup c))
  have hall := hfold w.background (w.withBackground [])
  rwa [show (w.withBackground []).background = [] from rfl, List.append_nil] at hall

end World

end BootEngine.Work
