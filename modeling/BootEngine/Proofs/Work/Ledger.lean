import Mathlib.Data.Multiset.Count
import Mathlib.Data.Multiset.Filter
import BootEngine.Proofs.Transaction.Permits
import BootEngine.Work.Run

/-!
# The ledger of a run

A run of work programs, seen by the transactions only: which scopes of which units are alive, who
has to end which transaction, the contexts, the rollbacks in the background, and the marks in the
journal. What a step of a run does to the ledger is one of a few acts, or several of them one after
another; an act says nothing about programs and layers.

Units may be given whose scopes nest: they overlap only by standing inside the work of the outermost
one. Others may be given whose transactions programs do not end themselves. The acts of these units
are restricted accordingly, the acts of all others are not.

Contents:
* `Item`: what a run holds on behalf of a scope.
* `Ledger`, `World.ledger`: the ledger, and the ledger of a world with what a run holds beside it.
* `Ledger.marks_openContext` and the like: what is told when a scope begins, ends or is cut off.
* `Act`: one change of the ledger.
* `begin_opened`, `begin_queued`, `begin_answering`: what a source answers with.
* `ledger_record`, `ledger_mark`, `ledger_leaveNested` and the like: what the changes of a world do
  to its ledger.
-/

namespace BootEngine.Work

open Transaction (Terminal Handle Source Context)

variable {H : Host}

/-! ## What a run holds -/

/-- What a run holds on behalf of a scope. An outermost scope waits for a transaction, which may
    have been set aside for it; then it works, and its nested scopes are alive beside it; then the
    call that ends its transaction waits for an answer; after a commit its effects run. Calls that
    programs make themselves wait for their answers, too. -/
inductive Item (H : Host) where
  | acquiring (unit : UnitId) (promise : Option Handle)
  | outer (unit : UnitId) (handle : Handle)
  | nested (unit : UnitId) (handle : Handle)
  | committing (unit : UnitId) (handle : Handle) (effects : List (List (Step H))) (value : Value)
  | rollingBack (unit : UnitId) (handle : Handle) (outcome : Outcome H)
  | effects (unit : UnitId) (handle : Handle) (started : Nat) (rest : List (List (Step H)))
      (value : Value)
  | direct (unit : UnitId) (handle : Handle)

namespace Item

/-- The unit that an item belongs to. -/
def unit : Item H → UnitId
  | acquiring u _ => u
  | outer u _ => u
  | nested u _ => u
  | committing u .. => u
  | rollingBack u .. => u
  | effects u .. => u
  | direct u _ => u

/-- The transaction that an item stands on. -/
def handle? : Item H → Option Handle
  | acquiring .. => none
  | outer _ h => some h
  | nested _ h => some h
  | committing _ h .. => some h
  | rollingBack _ h _ => some h
  | effects _ h .. => some h
  | direct _ h => some h

/-- The item is the work of an outermost scope of a unit. -/
def isOuter (u : UnitId) : Item H → Bool
  | outer v _ => v == u
  | _ => false

/-- The item is an outermost scope of a unit that waits or works. -/
def isSeat (u : UnitId) : Item H → Bool
  | acquiring v _ => v == u
  | outer v _ => v == u
  | _ => false

/-- The item is a nested scope of a unit. -/
def isNested (u : UnitId) : Item H → Bool
  | nested v _ => v == u
  | _ => false

/-- The item is a nested scope on a transaction. -/
def isNestedOn (h : Handle) : Item H → Bool
  | nested _ h' => h' == h
  | _ => false

/-- A transaction has been set aside for the item. -/
def isPromised (h : Handle) : Item H → Bool
  | acquiring _ p => p == some h
  | _ => false

/-- The item is an outermost scope that has a transaction in hand. -/
def owns (h : Handle) : Item H → Bool
  | outer _ h' => h' == h
  | committing _ h' .. => h' == h
  | rollingBack _ h' _ => h' == h
  | effects _ h' .. => h' == h
  | _ => false

/-- The transaction of a call that waits for its answer. -/
def call? : Item H → Option Handle
  | committing _ h .. => some h
  | rollingBack _ h _ => some h
  | direct _ h => some h
  | _ => none

/-- What an outermost scope goes on with when its work has ended: a commit with the effects of its
    context and its value, or a rollback with the outcome of the scope. -/
def ofWork (u : UnitId) (h : Handle) (c : Context (List (Step H))) (cancelled : Bool) :
    Outcome H → Item H
  | .ok value =>
    if cancelled then rollingBack u h (.error (.transaction .cancelled))
    else if c.rolledBack then rollingBack u h (.error (.transaction .rollbackOnly))
    else committing u h c.effects value
  | .error e => rollingBack u h (.error e)

/-- It goes on with a commit or a rollback. -/
theorem ofWork_cases (u : UnitId) (h : Handle) (c : Context (List (Step H))) (cancelled : Bool)
    (outcome : Outcome H) :
    (∃ held value, ofWork u h c cancelled outcome = committing u h held value) ∨
      ∃ o, ofWork u h c cancelled outcome = rollingBack u h o := by
  unfold ofWork
  split
  · split
    · exact .inr ⟨_, rfl⟩
    · split
      · exact .inr ⟨_, rfl⟩
      · exact .inl ⟨_, _, rfl⟩
  · exact .inr ⟨_, rfl⟩

/-- How the call of an item ends its transaction. -/
def terminal : Item H → Terminal
  | committing .. => .commit
  | _ => .rollback

end Item

/-- The transaction that has been set aside for a waiting scope. -/
def Acquiring.promise : Acquiring → Option Handle
  | .ticket _ => none
  | .answer _ (.ok handle) => some handle
  | .answer _ (.error _) => none

/-- What a call that ends a transaction holds while it waits. -/
def Closing.item : Closing H → Item H
  | .commit _ u h effects value => .committing u h effects value
  | .rollback _ u h outcome => .rollingBack u h outcome
  | .direct u _ h _ _ => .direct u h

/-- What a frame holds. -/
def Frame.items : Frame H → Multiset (Item H)
  | .nested u h => {.nested u h}
  | .outer u h => {.outer u h}
  | .effects _ u h index rest value => {.effects u h (index + 1) rest value}
  | _ => 0

mutual

/-- What a suspended computation holds. -/
def Paused.items : Paused H → Multiset (Item H)
  | .sleeping _ => 0
  | .yielded => 0
  | .acquiring u _ _ wait => {.acquiring u wait.promise}
  | .closing _ _ call => {call.item}
  | .under frame inner => frame.items + inner.items
  | .branches _ items => Paused.itemsAll items

/-- What branches hold. -/
def Paused.itemsAll : List (Branch H (Paused H)) → Multiset (Item H)
  | [] => 0
  | .paused p :: rest => p.items + Paused.itemsAll rest
  | .idle _ :: rest => Paused.itemsAll rest
  | .finished :: rest => Paused.itemsAll rest

end

/-- What a layer holds. -/
def Layer.items : Layer H → Multiset (Item H)
  | .frame f => f.items
  | .joining _ done todo => Paused.itemsAll done + Paused.itemsAll todo

/-- What layers hold. -/
def Layer.itemsAll : List (Layer H) → Multiset (Item H)
  | [] => 0
  | l :: rest => l.items + Layer.itemsAll rest

/-- What the computation in focus holds. -/
def Focus.items : Focus H → Multiset (Item H)
  | .enter p => p.items
  | .pause p => p.items
  | _ => 0

/-- What a run holds. -/
def Machine.items (m : Machine H) : Multiset (Item H) := m.focus.items + Layer.itemsAll m.layers

/-! ## Ledgers -/

/-- The number that the next transaction of a source will have. -/
def nextHandle : Source → Handle
  | .pool p => p.nextId
  | .scripted s => s.begins.made + 1

/-- What a run looks like to the transactions. -/
structure Ledger (H : Host) where
  contexts : UnitId → Option (Context (List (Step H)))
  cancelled : UnitId → Bool
  marks : List (Mark H)
  background : Multiset Cleanup
  next : Handle
  hasRuntime : Bool
  items : Multiset (Item H)

/-- The ledger of a world, with what the run holds in it. -/
def World.ledger (w : World H) (s : Multiset (Item H)) : Ledger H where
  contexts u := w.context? u
  cancelled u := w.isCancelled u
  marks := w.marks
  background := w.background
  next := nextHandle w.source
  hasRuntime := w.hasRuntime
  items := s

/-- The ledger of a run. -/
def Machine.ledger (m : Machine H) : Ledger H := m.world.ledger m.items

namespace Ledger

/-- Writes a mark down. -/
def note (m : Mark H) (l : Ledger H) : Ledger H := { l with marks := m :: l.marks }

/-- Sets the context of a unit. -/
def setContext (u : UnitId) (c : Option (Context (List (Step H)))) (l : Ledger H) : Ledger H :=
  { l with contexts := Function.update l.contexts u c }

/-- Sets what the run holds. -/
def holding (s : Multiset (Item H)) (l : Ledger H) : Ledger H := { l with items := s }

/-- Sets the number of the next transaction. -/
def upTo (n : Handle) (l : Ledger H) : Ledger H := { l with next := n }

/-- Cancels a unit. -/
def cancel (u : UnitId) (l : Ledger H) : Ledger H :=
  { l.note (.cancelled u) with cancelled := Function.update l.cancelled u true }

/-- An outermost scope receives its transaction. -/
def openContext (u : UnitId) (h : Handle) (l : Ledger H) : Ledger H :=
  let opened := (l.note (.opened u h)).setContext u (some (.start h))
  match l.contexts u with
  | none => opened
  | some c => opened.note (.replaced u c.handle)

/-- A nested scope ends. -/
def leaveNested (u : UnitId) (h : Handle) (outcome : Option (Outcome H)) (l : Ledger H) : Ledger H :=
  let left := l.note (.nestedEnded u h outcome)
  match l.contexts u with
  | none => left
  | some c => left.setContext u (some (if endedWell outcome then c else c.markRolledBack).exit)

/-- The work of an outermost scope ends. -/
def endWork (u : UnitId) (h : Handle) (outcome : Outcome H) (l : Ledger H) : Ledger H :=
  (l.note (.workEnded u h outcome (l.cancelled u))).setContext u none

/-- The work of an outermost scope is cut off. -/
def interrupt (u : UnitId) (h : Handle) (l : Ledger H) : Ledger H :=
  let cut := l.note (.interrupted u h)
  match l.contexts u with
  | none => cut
  | some c =>
    let cut := cut.setContext u none
    if l.hasRuntime then { cut with background := .fresh c.handle ::ₘ cut.background }
    else cut.note (.lost c.handle)

section Marks

variable (l : Ledger H) (u : UnitId) (h : Handle)

/-- It is told when a context stood where another one is put. -/
theorem marks_openContext :
    ∃ ms, (l.openContext u h).marks = ms ++ .opened u h :: l.marks ∧
      (l.contexts u = none ∧ ms = [] ∨
        ∃ c, l.contexts u = some c ∧ ms = [.replaced u c.handle]) := by
  unfold openContext
  dsimp only
  split
  · next hx => exact ⟨[], rfl, .inl ⟨hx, rfl⟩⟩
  · next c hx => exact ⟨[_], rfl, .inr ⟨c, hx, rfl⟩⟩

theorem contexts_openContext :
    (l.openContext u h).contexts = Function.update l.contexts u (some (.start h)) := by
  unfold openContext
  dsimp only
  split <;> rfl

theorem marks_leaveNested (outcome : Option (Outcome H)) :
    (l.leaveNested u h outcome).marks = .nestedEnded u h outcome :: l.marks := by
  unfold leaveNested
  dsimp only
  split <;> rfl

theorem background_openContext : (l.openContext u h).background = l.background := by
  unfold openContext
  dsimp only
  split <;> rfl

theorem background_leaveNested (outcome : Option (Outcome H)) :
    (l.leaveNested u h outcome).background = l.background := by
  unfold leaveNested
  dsimp only
  split <;> rfl

/-- Without a runtime the transaction of a context is given up, which is told. -/
theorem marks_interrupt :
    ∃ ms, (l.interrupt u h).marks = ms ++ .interrupted u h :: l.marks ∧
      (ms = [] ∨ ∃ c, l.contexts u = some c ∧ l.hasRuntime = false ∧ ms = [.lost c.handle]) := by
  unfold interrupt
  dsimp only
  split
  · exact ⟨[], rfl, .inl rfl⟩
  · next c hx =>
    split
    · exact ⟨[], rfl, .inl rfl⟩
    · next hr => exact ⟨[_], rfl, .inr ⟨c, hx, eq_false_of_ne_true hr, rfl⟩⟩

theorem contexts_interrupt :
    (l.interrupt u h).contexts = Function.update l.contexts u none := by
  unfold interrupt
  dsimp only
  split
  · next hx => rw [← hx, Function.update_eq_self]; rfl
  · split <;> rfl

end Marks

end Ledger

/-! ## Acts -/

/-- An outermost scope that has no transaction yet may end with a failure: its unit was cancelled,
    or else the source failed, or its time was over. -/
def EndsWaiting (cancelled : Bool) : TransactionError → Prop
  | .cancelled => cancelled = true
  | .beginFailed _ => cancelled = false
  | .acquireTimeout _ => cancelled = false
  | _ => False

/-- One change of a ledger. The scopes of the units in `T` nest, and programs do not end
    transactions of the units in `D`. -/
inductive Act (T D : UnitId → Prop) : Ledger H → Ledger H → Prop
  /-- The source moves on. -/
  | advance {l : Ledger H} {n : Handle} (hn : l.next ≤ n) : Act T D l (l.upTo n)
  | cancel {l : Ledger H} (u : UnitId) : Act T D l (l.cancel u)
  | refuse {l : Ledger H} {u : UnitId} (hc : l.cancelled u = true) : Act T D l (l.note (.refused u))
  | request {l : Ledger H} {u : UnitId} {p : Option Handle} {n : Handle}
      (hc : l.cancelled u = false) (hx : l.contexts u = none)
      (hp : p = none ∧ l.next ≤ n ∨ p = some l.next ∧ n = l.next + 1)
      (hT : T u → l.items.countP (·.isSeat u) = 0) :
      Act T D l (((l.note (.requested u)).upTo n).holding (.acquiring u p ::ₘ l.items))
  | unserved {l : Ledger H} {u : UnitId} {p : Option Handle} {s : Multiset (Item H)}
      (e : TransactionError) (hi : l.items = .acquiring u p ::ₘ s)
      (he : EndsWaiting (l.cancelled u) e) : Act T D l ((l.note (.unserved u e)).holding s)
  | withdraw {l : Ledger H} {u : UnitId} {p : Option Handle} {s : Multiset (Item H)}
      (hi : l.items = .acquiring u p ::ₘ s) : Act T D l ((l.note (.withdrawn u)).holding s)
  | serve {l : Ledger H} {u : UnitId} {p : Option Handle} {h n : Handle} {s : Multiset (Item H)}
      (hi : l.items = .acquiring u p ::ₘ s) (hc : l.cancelled u = false)
      (hp : p = some h ∧ n = l.next ∨ p = none ∧ h = l.next ∧ n = l.next + 1) :
      Act T D l (((l.openContext u h).upTo n).holding (.outer u h ::ₘ s))
  | enterNested {l : Ledger H} {u : UnitId} {c : Context (List (Step H))}
      (hx : l.contexts u = some c) :
      Act T D l (((l.note (.nestedBegun u c.handle)).setContext u (some c.enter)).holding
        (.nested u c.handle ::ₘ l.items))
  | leaveNested {l : Ledger H} {u : UnitId} {h : Handle} {s : Multiset (Item H)}
      (outcome : Option (Outcome H)) (hi : l.items = .nested u h ::ₘ s) :
      Act T D l ((l.leaveNested u h outcome).holding s)
  | defer {l : Ledger H} {u : UnitId} {c : Context (List (Step H))} (effect : List (Step H))
      (hx : l.contexts u = some c) :
      Act T D l ((l.note (.deferred u c.handle effect)).setContext u (some (c.defer effect)))
  | close {l : Ledger H} {u : UnitId} {h : Handle} {c : Context (List (Step H))}
      {s : Multiset (Item H)} (outcome : Outcome H) (hi : l.items = .outer u h ::ₘ s)
      (hx : l.contexts u = some c) (hT : T u → s.countP (·.isNested u) = 0) :
      Act T D l (((l.endWork u h outcome).note
        (.ending (Item.ofWork u h c (l.cancelled u) outcome).terminal h)).holding
          (Item.ofWork u h c (l.cancelled u) outcome ::ₘ s))
  | stray {l : Ledger H} {u : UnitId} {h : Handle} {s : Multiset (Item H)}
      (hi : l.items = .outer u h ::ₘ s) (hx : l.contexts u = none) :
      Act T D l (((l.note (.strayed u h)).note
        (.returned u h (.error (.transaction .noActiveTransaction)))).holding s)
  | interrupt {l : Ledger H} {u : UnitId} {h : Handle} {s : Multiset (Item H)}
      (hi : l.items = .outer u h ::ₘ s) (hT : T u → s.countP (·.isNested u) = 0) :
      Act T D l ((l.interrupt u h).holding s)
  | committed {l : Ledger H} {u : UnitId} {h : Handle} {effects : List (List (Step H))}
      {value : Value} {s : Multiset (Item H)}
      (hi : l.items = .committing u h effects value ::ₘ s) :
      Act T D l ((l.note (.ended .commit h none)).holding (.effects u h 0 effects value ::ₘ s))
  | commitFailed {l : Ledger H} {u : UnitId} {h : Handle} {effects : List (List (Step H))}
      {value : Value} {s : Multiset (Item H)} (reason : String)
      (hi : l.items = .committing u h effects value ::ₘ s) :
      Act T D l (((l.note (.ended .commit h (some reason))).note
        (.returned u h (.error (.transaction (.commitFailed reason))))).holding s)
  | rolledBack {l : Ledger H} {u : UnitId} {h : Handle} {outcome : Outcome H}
      {s : Multiset (Item H)} (failure : Option String)
      (hi : l.items = .rollingBack u h outcome ::ₘ s) :
      Act T D l (((l.note (.ended .rollback h failure)).note (.returned u h outcome)).holding s)
  | dropCall {l : Ledger H} {i : Item H} {h : Handle} {s : Multiset (Item H)}
      (hi : l.items = i ::ₘ s) (hc : i.call? = some h) :
      Act T D l ((l.note (.callDropped h)).holding s)
  | startEffect {l : Ledger H} {u : UnitId} {h : Handle} {index : Nat} {effect : List (Step H)}
      {rest : List (List (Step H))} {value : Value} {s : Multiset (Item H)}
      (hi : l.items = .effects u h index (effect :: rest) value ::ₘ s) :
      Act T D l ((l.note (.effectStarted u h index effect)).holding
        (.effects u h (index + 1) rest value ::ₘ s))
  | finishEffects {l : Ledger H} {u : UnitId} {h : Handle} {index : Nat} {value : Value}
      {s : Multiset (Item H)} (hi : l.items = .effects u h index [] value ::ₘ s) :
      Act T D l ((l.note (.returned u h (.ok value))).holding s)
  | dropEffects {l : Ledger H} {u : UnitId} {h : Handle} {index : Nat}
      {rest : List (List (Step H))} {value : Value} {s : Multiset (Item H)}
      (hi : l.items = .effects u h index rest value ::ₘ s) : Act T D l (l.holding s)
  | direct {l : Ledger H} {u : UnitId} {c : Context (List (Step H))} (terminal : Terminal)
      (hx : l.contexts u = some c) (hD : ¬ D u) :
      Act T D l (((l.note (.direct u c.handle)).note (.ending terminal c.handle)).holding
        (.direct u c.handle ::ₘ l.items))
  | directEnded {l : Ledger H} {u : UnitId} {h : Handle} {s : Multiset (Item H)}
      (terminal : Terminal) (failure : Option String) (hi : l.items = .direct u h ::ₘ s) :
      Act T D l ((l.note (.ended terminal h failure)).holding s)
  | startCleanup {l : Ledger H} {h : Handle} {b : Multiset Cleanup} (due : Nat)
      (failure : Option String) (hb : l.background = .fresh h ::ₘ b) :
      Act T D l { l.note (.ending .rollback h) with background := .waiting h due failure ::ₘ b }
  | endCleanup {l : Ledger H} {h : Handle} {b : Multiset Cleanup} {due : Nat}
      {failure : Option String} (hb : l.background = .waiting h due failure ::ₘ b) :
      Act T D l { l.note (.ended .rollback h failure) with background := b }

/-- Acts one after another. -/
abbrev Acts (T D : UnitId → Prop) : Ledger H → Ledger H → Prop := Relation.ReflTransGen (Act T D)

/-! ## What the changes of a world do to its ledger -/

section Source

theorem nextHandle_onPool (s : Source) (change : Transaction.Pool → Transaction.Pool)
    (h : ∀ p, (change p).nextId = p.nextId) : nextHandle (s.onPool change) = nextHandle s := by
  cases s with
  | pool p => exact h p
  | scripted s => rfl

@[simp] theorem nextHandle_retain (s : Source) (h : Handle) :
    nextHandle (s.retain h) = nextHandle s :=
  nextHandle_onPool s _ fun _ => rfl

@[simp] theorem nextHandle_letGo (s : Source) (h : Handle) :
    nextHandle (s.letGo h) = nextHandle s :=
  nextHandle_onPool s _ fun p => by
    unfold Transaction.Pool.letGo; dsimp only; split
    · rw [Transaction.Pool.nextId_release]; rfl
    · rfl

@[simp] theorem nextHandle_withdraw (s : Source) (ticket : Nat) :
    nextHandle (s.withdraw ticket) = nextHandle s :=
  nextHandle_onPool s _ fun p => by
    unfold Transaction.Pool.withdraw; split
    · rw [Transaction.Pool.nextId_giveBack]
    · rfl

@[simp] theorem nextHandle_armCommitFailure (s : Source) :
    nextHandle s.armCommitFailure = nextHandle s :=
  nextHandle_onPool s _ fun _ => rfl

@[simp] theorem nextHandle_finish (s : Source) (t : Terminal) (h : Handle) :
    nextHandle (s.finish t h).2 = nextHandle s := by
  cases s with
  | pool p =>
    cases t with
    | commit =>
      show (p.commit h).2.nextId = p.nextId
      unfold Transaction.Pool.commit; dsimp only; split <;> exact Transaction.Pool.nextId_release p h
    | rollback => exact Transaction.Pool.nextId_release p h
  | scripted s => cases t <;> rfl

/-- A source that begins a transaction gives it the next number; the number of the one after is
    greater. -/
theorem begin_opened {s s' : Source} {h : Handle} (hs : s.begin = (.opened h, s')) :
    h = nextHandle s ∧ nextHandle s' = nextHandle s + 1 := by
  cases s with
  | pool p =>
    simp only [Source.begin, Transaction.Pool.begin] at hs
    split at hs
    · next heq =>
      split at heq
      · simp only [Prod.mk.injEq, Transaction.Begun.opened.injEq] at hs
        simp only [Prod.mk.injEq, Sum.inl.injEq] at heq
        obtain ⟨rfl, rfl⟩ := hs
        obtain ⟨rfl, rfl⟩ := heq
        exact ⟨rfl, rfl⟩
      · simp at heq
    · simp at hs
  | scripted s => simp [Source.begin] at hs

theorem begin_queued {s s' : Source} {ticket : Nat} (hs : s.begin = (.queued ticket, s')) :
    nextHandle s' = nextHandle s := by
  cases s with
  | pool p =>
    simp only [Source.begin, Transaction.Pool.begin] at hs
    split at hs
    · simp at hs
    · next heq =>
      split at heq
      · simp at heq
      · simp only [Prod.mk.injEq] at hs
        simp only [Prod.mk.injEq, Sum.inr.injEq] at heq
        obtain ⟨-, rfl⟩ := hs
        obtain ⟨-, rfl⟩ := heq
        rfl
  | scripted s => simp [Source.begin] at hs

/-- A transaction that is promised has the next number. -/
theorem begin_answering {s s' : Source} {delay : Nat} {reply : Except String Handle}
    (hs : s.begin = (.answering delay reply, s')) :
    nextHandle s' = nextHandle s + 1 ∧ ∀ h, reply = .ok h → h = nextHandle s := by
  cases s with
  | pool p => simp only [Source.begin] at hs; split at hs <;> simp at hs
  | scripted s =>
    simp only [Source.begin, Prod.mk.injEq, Transaction.Begun.answering.injEq] at hs
    obtain ⟨⟨-, rfl⟩, rfl⟩ := hs
    refine ⟨rfl, fun h hr => ?_⟩
    split at hr
    · simp at hr
    · exact (Except.ok.inj hr).symm

/-- Who comes for a granted permit gets a transaction with the next number. -/
theorem claim_of_isGranted {s : Source} {ticket : Nat} (hs : s.isGranted ticket = true) :
    (s.claim ticket).1 = nextHandle s ∧
      nextHandle (s.claim ticket).2 = nextHandle s + 1 := by
  cases s with
  | pool p => exact ⟨rfl, rfl⟩
  | scripted s => simp [Source.isGranted] at hs

end Source

namespace World

theorem unit_onUnit (w : World H) (u v : UnitId) (change : UnitState H → UnitState H) :
    (w.onUnit u change).unit v = if v = u then change (w.unit v) else w.unit v := by
  have hroom : ∀ v, (w.units ++ .replicate (u + 1 - w.units.length) .idle)[v]?.getD .idle =
      w.unit v := by
    intro v
    unfold unit
    rcases Nat.lt_or_ge v w.units.length with hv | hv
    · rw [List.getElem?_append_left hv]
    · rw [List.getElem?_append_right hv, List.getElem?_replicate, List.getElem?_eq_none hv]
      split <;> rfl
  show ((w.units ++ .replicate (u + 1 - w.units.length) .idle).modify u change)[v]?.getD .idle = _
  rw [List.getElem?_modify, ← hroom v]
  split
  · next hv =>
    subst hv
    have hlt : u < (w.units ++ .replicate (u + 1 - w.units.length) UnitState.idle).length := by
      rw [List.length_append, List.length_replicate]
      exact Nat.sub_le_iff_le_add'.mp (Nat.le_refl (u + 1 - w.units.length))
    simp [List.getElem?_eq_getElem hlt]
  · next hv => rw [if_neg fun e => hv e.symm]; simp

variable (w : World H) (s : Multiset (Item H))

@[simp] theorem items_ledger : (w.ledger s).items = s := rfl

theorem ledger_record {e : Entry H} (he : e.mark? = none) : (w.record e).ledger s = w.ledger s := by
  simp [ledger, record, marks, he, context?, isCancelled, unit]

@[simp] theorem ledger_mark (m : Mark H) : (w.mark m).ledger s = (w.ledger s).note m := rfl

@[simp] theorem ledger_alert (a : Alert) : (w.record (.alert a)).ledger s = w.ledger s := rfl

@[simp] theorem ledger_setContext (u : UnitId) (c : Option (Context (List (Step H)))) :
    (w.setContext u c).ledger s = (w.ledger s).setContext u c := by
  have hx : (fun v => (w.setContext u c).context? v) = Function.update w.context? u c := by
    funext v
    show ((w.onUnit u _).unit v).context = _
    rw [unit_onUnit, Function.update_apply]
    split <;> rfl
  have hc : (fun v => (w.setContext u c).isCancelled v) = fun v => w.isCancelled v := by
    funext v
    show ((w.onUnit u _).unit v).cancelled = _
    rw [unit_onUnit]
    split <;> rfl
  exact congrArg₂ (fun x y => (⟨x, y, w.marks, w.background, nextHandle w.source, w.hasRuntime, s⟩ :
    Ledger H)) hx hc

@[simp] theorem ledger_cancel (u : UnitId) : (w.cancel u).ledger s = (w.ledger s).cancel u := by
  have hx : (fun v => (w.cancel u).context? v) = fun v => w.context? v := by
    funext v
    show (((w.mark _).onUnit u _).unit v).context = _
    rw [unit_onUnit]
    split <;> rfl
  have hc : (fun v => (w.cancel u).isCancelled v) = Function.update w.isCancelled u true := by
    funext v
    show (((w.mark _).onUnit u _).unit v).cancelled = _
    rw [unit_onUnit, Function.update_apply]
    split <;> rfl
  exact congrArg₂ (fun x y => (⟨x, y, .cancelled u :: w.marks, w.background, nextHandle w.source,
    w.hasRuntime, s⟩ : Ledger H)) hx hc

@[simp] theorem ledger_letGo (handles : List Handle) :
    (w.letGo handles).ledger s = w.ledger s := by
  have hn : nextHandle (w.letGo handles).source = nextHandle w.source := by
    show nextHandle (handles.foldl (fun source handle => source.letGo handle) w.source) = _
    generalize w.source = src
    induction handles generalizing src with
    | nil => rfl
    | cons h rest ih => rw [List.foldl_cons, ih, nextHandle_letGo]
  simp only [ledger, hn]
  rfl

@[simp] theorem ledger_source (source : Source) :
    World.ledger { w with source } s = (w.ledger s).upTo (nextHandle source) := rfl

@[simp] theorem ledger_recordCall (call : Transaction.Call) :
    (w.recordCall call).ledger s = w.ledger s := by
  unfold recordCall; split <;> rfl

@[simp] theorem ledger_addUnit : w.addUnit.2.ledger s = w.ledger s := by
  have hu : ∀ v, w.addUnit.2.unit v = w.unit v := by
    intro v
    show (w.units ++ [UnitState.idle])[v]?.getD .idle = w.units[v]?.getD .idle
    rcases Nat.lt_trichotomy v w.units.length with hv | hv | hv
    · rw [List.getElem?_append_left hv]
    · subst hv; simp
    · rw [List.getElem?_eq_none (by simp; omega), List.getElem?_eq_none (by omega)]
  simp only [ledger, context?, isCancelled, hu]
  rfl

@[simp] theorem ledger_named (name : String) : (w.named name).2.ledger s = w.ledger s := by
  unfold named
  split
  · rfl
  · exact ledger_addUnit w s

@[simp] theorem ledger_openContext (u : UnitId) (h : Handle) :
    (w.openContext u h).ledger s = (w.ledger s).openContext u h := by
  unfold openContext Ledger.openContext
  show World.ledger (match w.context? u with | none => _ | some c => _) s =
    match w.context? u with | none => _ | some c => _
  cases w.context? u <;> simp <;> rfl

@[simp] theorem ledger_enterNested (u : UnitId) (c : Context (List (Step H))) :
    (w.enterNested u c).ledger s =
      ((w.ledger s).note (.nestedBegun u c.handle)).setContext u (some c.enter) := by
  simp [enterNested]

@[simp] theorem ledger_deferEffect (u : UnitId) (c : Context (List (Step H)))
    (effect : List (Step H)) :
    (w.deferEffect u c effect).ledger s =
      ((w.ledger s).note (.deferred u c.handle effect)).setContext u (some (c.defer effect)) := by
  simp [deferEffect]

@[simp] theorem ledger_leaveNested (u : UnitId) (h : Handle) (outcome : Option (Outcome H)) :
    (w.leaveNested u h outcome).ledger s = (w.ledger s).leaveNested u h outcome := by
  unfold leaveNested Ledger.leaveNested
  show World.ledger (match w.context? u with | none => _ | some c => _) s =
    match w.context? u with | none => _ | some c => _
  cases w.context? u <;> simp

@[simp] theorem ledger_endWork (u : UnitId) (h : Handle) (outcome : Outcome H) :
    (w.endWork u h outcome).ledger s = (w.ledger s).endWork u h outcome := by
  simp only [endWork, Ledger.endWork, ledger_setContext, ledger_mark]
  rfl

@[simp] theorem ledger_interrupt (u : UnitId) (h : Handle) :
    (w.interrupt u h).ledger s = (w.ledger s).interrupt u h := by
  unfold interrupt Ledger.interrupt
  show World.ledger (match w.context? u with | none => _ | some c => _) s =
    match w.context? u with | none => _ | some c => _
  cases w.context? u with
  | none => rfl
  | some c =>
    show World.ledger (if w.hasRuntime then _ else _) s = if w.hasRuntime then _ else _
    have hset := ledger_setContext (w.mark (.interrupted u h)) s u none
    cases w.hasRuntime with
    | false => simp
    | true =>
      have hb : ((w.background ++ [Cleanup.fresh c.handle] : List Cleanup) : Multiset Cleanup) =
          .fresh c.handle ::ₘ (w.background : Multiset Cleanup) :=
        Multiset.coe_eq_coe.2 (List.perm_append_singleton _ _)
      show { World.ledger ((w.mark (.interrupted u h)).setContext u none) s with
        background := ((w.background ++ [Cleanup.fresh c.handle] : List Cleanup) :
          Multiset Cleanup) } = _
      rw [hset, hb]
      rfl

@[simp] theorem ledger_startFinish (t : Terminal) (h : Handle) :
    (w.startFinish t h).2.ledger s = (w.ledger s).note (.ending t h) := by
  show World.ledger { (w.mark _).recordCall _ with source := _ } s = _
  have hsource : ((w.mark (.ending t h)).recordCall (.finish t)).source = w.source := by
    unfold recordCall; split <;> rfl
  rw [ledger_source, ledger_recordCall, hsource, nextHandle_finish]
  rfl

@[simp] theorem ledger_noteEnded (t : Terminal) (h : Handle) (failure : Option String) :
    (w.noteEnded t h failure).ledger s = (w.ledger s).note (.ended t h failure) := rfl

@[simp] theorem ledger_noteRollback (h : Handle) (failure : Option String) :
    (w.noteRollback h failure).ledger s = (w.ledger s).note (.ended .rollback h failure) := by
  cases failure <;> rfl

/-- What asking for a transaction does, by what the source answers: who has it at once, and who is
    promised one, has the next one. -/
theorem ledger_request (u : UnitId) :
    (w.request u).2.ledger s =
      ((w.ledger s).note (.requested u)).upTo (nextHandle (w.request u).2.source) ∧
    match (w.request u).1 with
    | .opened h => h = nextHandle w.source ∧
        nextHandle (w.request u).2.source = nextHandle w.source + 1
    | .queued _ => nextHandle (w.request u).2.source = nextHandle w.source
    | .answering _ reply => nextHandle (w.request u).2.source = nextHandle w.source + 1 ∧
        ∀ h, reply = .ok h → h = nextHandle w.source := by
  have hsource : ((w.mark (.requested u)).recordCall .begin).source = w.source := by
    unfold recordCall; split <;> rfl
  refine ⟨?_, ?_⟩
  · show World.ledger { (w.mark _).recordCall _ with source := _ } s = _
    rw [ledger_source, ledger_recordCall]
    rfl
  · simp only [request, hsource]
    split
    · next h heq => exact begin_opened (Prod.ext heq rfl)
    · next n heq => exact begin_queued (Prod.ext heq rfl)
    · next d r heq => exact begin_answering (Prod.ext heq rfl)

@[simp] theorem ledger_withdraw (wait : Acquiring) :
    (wait.withdraw w).ledger s = w.ledger s := by
  cases wait with
  | ticket n => rw [Acquiring.withdraw, ledger_source, nextHandle_withdraw]; rfl
  | answer due reply => rfl

end World

/-! ## What a run holds, and the rest of the ledger -/

namespace Ledger

@[simp] theorem holding_ledger (w : World H) (s s' : Multiset (Item H)) :
    (w.ledger s).holding s' = w.ledger s' := rfl

variable (l : Ledger H) (s : Multiset (Item H))

@[simp] theorem holding_note (m : Mark H) : (l.note m).holding s = (l.holding s).note m := rfl

@[simp] theorem holding_upTo (n : Handle) : (l.upTo n).holding s = (l.holding s).upTo n := rfl

@[simp] theorem holding_setContext (u : UnitId) (c : Option (Context (List (Step H)))) :
    (l.setContext u c).holding s = (l.holding s).setContext u c := rfl

@[simp] theorem holding_openContext (u : UnitId) (h : Handle) :
    (l.openContext u h).holding s = (l.holding s).openContext u h := by
  unfold openContext
  show Ledger.holding s (match l.contexts u with | none => _ | some c => _) =
    match l.contexts u with | none => _ | some c => _
  cases l.contexts u <;> rfl

@[simp] theorem holding_leaveNested (u : UnitId) (h : Handle) (outcome : Option (Outcome H)) :
    (l.leaveNested u h outcome).holding s = (l.holding s).leaveNested u h outcome := by
  unfold leaveNested
  show Ledger.holding s (match l.contexts u with | none => _ | some c => _) =
    match l.contexts u with | none => _ | some c => _
  cases l.contexts u <;> rfl

@[simp] theorem holding_endWork (u : UnitId) (h : Handle) (outcome : Outcome H) :
    (l.endWork u h outcome).holding s = (l.holding s).endWork u h outcome := rfl

@[simp] theorem holding_interrupt (u : UnitId) (h : Handle) :
    (l.interrupt u h).holding s = (l.holding s).interrupt u h := by
  unfold interrupt
  show Ledger.holding s (match l.contexts u with | none => _ | some c => _) =
    match l.contexts u with | none => _ | some c => _
  cases l.contexts u with
  | none => rfl
  | some c =>
    show Ledger.holding s (if l.hasRuntime then _ else _) = if l.hasRuntime then _ else _
    cases l.hasRuntime <;> rfl

end Ledger

end BootEngine.Work
