import BootEngine.Proofs.Work.Nesting

/-!
# Accounts of transactions

What the marks of a run tell about one transaction, added up; and who still has to do something for
it. The two fit together at every moment: who holds a transaction decides how far its account has
come.

Contents:
* `Course`, `Account`, `account`: what the marks tell about a transaction.
* `keepers`: who has to do something for a transaction.
* `Refusal`, `Over`, `Fits`: the accounts that go together with the keepers.
-/

namespace BootEngine.Work

open Transaction (Terminal Handle Context)

variable {H : Host}

/-! ## Accounts -/

/-- How a transaction is brought to its end. -/
structure Course (H : Host) where
  /-- How its work ended, and whether the unit had been cancelled by then. Work that was cut off has
      no outcome. -/
  work : Option (Option (Outcome H × Bool)) := none
  /-- The calls that end it, in order. -/
  calls : List Terminal := []
  /-- The answers to these calls, in order. -/
  answers : List (Terminal × Option String) := []
  /-- The effects that have started, in order. -/
  started : List (List (Step H)) := []
  /-- A call was dropped before its answer. -/
  dropped : Bool := false
  /-- It was given up because nothing could run in the background. -/
  lost : Bool := false
  /-- Its scope found no context at the end of its work. -/
  strayed : Bool := false
  /-- The outcome of its scope. -/
  returned : Option (Outcome H) := none

/-- What the marks of a run tell about a transaction. -/
structure Account (H : Host) where
  /-- The unit whose scope received it. -/
  opener : Option UnitId := none
  /-- The number of nested scopes that run on it. -/
  running : Nat := 0
  /-- A nested scope on it did not end well while its work went on. -/
  failed : Bool := false
  /-- A nested scope on it was running when its work ended. -/
  overlapped : Bool := false
  /-- The effects that were put off until its commit, in order. -/
  deferred : List (List (Step H)) := []
  course : Course H := {}

/-- The transaction that a mark is about. -/
def Mark.handle? : Mark H → Option Handle
  | .cancelled _ => none
  | .refused _ => none
  | .requested _ => none
  | .unserved .. => none
  | .withdrawn _ => none
  | .opened _ h => some h
  | .replaced _ h => some h
  | .nestedBegun _ h => some h
  | .nestedEnded _ h _ => some h
  | .deferred _ h _ => some h
  | .workEnded _ h .. => some h
  | .strayed _ h => some h
  | .interrupted _ h => some h
  | .lost h => some h
  | .direct _ h => some h
  | .ending _ h => some h
  | .ended _ h _ => some h
  | .callDropped h => some h
  | .effectStarted _ h .. => some h
  | .returned _ h _ => some h

/-- What a mark adds to how a transaction is brought to its end. -/
def Course.note (m : Mark H) (c : Course H) : Course H :=
  match m with
  | .workEnded _ _ outcome cancelled => { c with work := some (some (outcome, cancelled)) }
  | .interrupted .. => { c with work := some none }
  | .ending t _ => { c with calls := c.calls ++ [t] }
  | .ended t _ failure => { c with answers := c.answers ++ [(t, failure)] }
  | .effectStarted _ _ _ effect => { c with started := c.started ++ [effect] }
  | .callDropped _ => { c with dropped := true }
  | .lost _ => { c with lost := true }
  | .strayed .. => { c with strayed := true }
  | .returned _ _ outcome => { c with returned := some outcome }
  | _ => c

/-- What a mark adds to the account of the transaction that it is about. -/
def Account.note (m : Mark H) (a : Account H) : Account H where
  opener := match m with
    | .opened u _ => some u
    | _ => a.opener
  running := match m with
    | .nestedBegun .. => a.running + 1
    | .nestedEnded .. => a.running - 1
    | _ => a.running
  failed := match m with
    | .nestedEnded _ _ outcome => a.failed || a.course.work.isNone && !endedWell outcome
    | _ => a.failed
  overlapped := match m with
    | .workEnded .. => a.running != 0
    | .interrupted .. => a.running != 0
    | _ => a.overlapped
  deferred := match m with
    | .deferred _ _ effect => a.deferred ++ [effect]
    | _ => a.deferred
  course := a.course.note m

theorem Account.course_note (m : Mark H) (a : Account H) :
    (a.note m).course = a.course.note m := rfl

/-- The account of a transaction, from the marks, newest first. -/
def account (h : Handle) : List (Mark H) → Account H
  | [] => {}
  | m :: older => if m.handle? = some h then (account h older).note m else account h older

/-- The account of a transaction in a ledger. -/
def Ledger.account (l : Ledger H) (h : Handle) : Account H := Work.account h l.marks

theorem account_cons_self {h : Handle} {m : Mark H} (marks : List (Mark H))
    (hm : m.handle? = some h) : account h (m :: marks) = (account h marks).note m := if_pos hm

theorem account_cons_of_ne {h : Handle} {m : Mark H} (marks : List (Mark H))
    (hm : m.handle? ≠ some h) : account h (m :: marks) = account h marks := if_neg hm

/-! ## Keepers -/

/-- The transaction of a rollback in the background. -/
def Cleanup.handle : Cleanup → Handle
  | .fresh h => h
  | .waiting h _ _ => h

/-- Who has to do something for a transaction: a scope, or a rollback in the background. -/
inductive Keeper (H : Host) where
  | item (i : Item H)
  | cleanup (c : Cleanup)

/-- The scopes in what a run holds that have to do something for a transaction. -/
def scopeKeepers (h : Handle) (s : Multiset (Item H)) : Multiset (Keeper H) :=
  (s.filter fun i => i.owns h).map .item

/-- The rollbacks in the background that have to do something for a transaction. -/
def cleanupKeepers (h : Handle) (b : Multiset Cleanup) : Multiset (Keeper H) :=
  (b.filter fun c => c.handle = h).map .cleanup

/-- Who has to do something for a transaction. -/
def keepers (h : Handle) (l : Ledger H) : Multiset (Keeper H) :=
  scopeKeepers h l.items + cleanupKeepers h l.background

theorem scopeKeepers_cons_of_owns {h : Handle} {i : Item H} (hi : i.owns h) (s : Multiset (Item H)) :
    scopeKeepers h (i ::ₘ s) = .item i ::ₘ scopeKeepers h s := by
  rw [scopeKeepers, Multiset.filter_cons_of_pos (p := fun i => i.owns h = true) s hi, Multiset.map_cons]
  rfl

theorem scopeKeepers_cons_of_not_owns {h : Handle} {i : Item H} (hi : ¬ i.owns h)
    (s : Multiset (Item H)) : scopeKeepers h (i ::ₘ s) = scopeKeepers h s := by
  rw [scopeKeepers, Multiset.filter_cons_of_neg (p := fun i => i.owns h = true) s hi]
  rfl

theorem cleanupKeepers_cons_self {c : Cleanup} {h : Handle} (hc : c.handle = h)
    (b : Multiset Cleanup) :
    (cleanupKeepers h (c ::ₘ b) : Multiset (Keeper H)) = .cleanup c ::ₘ cleanupKeepers h b := by
  rw [cleanupKeepers, Multiset.filter_cons_of_pos (p := fun c => c.handle = h) b hc, Multiset.map_cons]
  rfl

theorem cleanupKeepers_cons_of_ne {c : Cleanup} {h : Handle} (hc : c.handle ≠ h)
    (b : Multiset Cleanup) :
    (cleanupKeepers h (c ::ₘ b) : Multiset (Keeper H)) = cleanupKeepers h b := by
  rw [cleanupKeepers, Multiset.filter_cons_of_neg (p := fun c => c.handle = h) b hc]
  rfl

theorem mem_items_of_keepers {h : Handle} {i : Item H} {l : Ledger H}
    (hi : .item i ∈ keepers h l) : i ∈ l.items := by
  rcases Multiset.mem_add.mp hi with hi | hi
  · obtain ⟨j, hj, he⟩ := Multiset.mem_map.mp hi
    rw [← Keeper.item.inj he]
    exact (Multiset.mem_filter.mp hj).1
  · obtain ⟨c, -, he⟩ := Multiset.mem_map.mp hi
    cases he

theorem mem_background_of_keepers {h : Handle} {c : Cleanup} {l : Ledger H}
    (hc : .cleanup c ∈ keepers h l) : c ∈ l.background := by
  rcases Multiset.mem_add.mp hc with hc | hc
  · obtain ⟨i, -, he⟩ := Multiset.mem_map.mp hc
    cases he
  · obtain ⟨d, hd, he⟩ := Multiset.mem_map.mp hc
    rw [← Keeper.cleanup.inj he]
    exact (Multiset.mem_filter.mp hd).1

/-! ## What goes together -/

/-- Why a scope is rolled back after its work has ended, and with which outcome: the work failed, or
    its unit was cancelled, or a nested scope failed. -/
def Refusal (loose : Prop) (failed : Bool) (cancelled : Bool) (r : Outcome H) : Outcome H → Prop
  | .error e => r = .error e
  | .ok _ =>
    cancelled = true ∧ r = .error (.transaction .cancelled) ∨
      cancelled = false ∧ (failed = true ∨ loose) ∧ r = .error (.transaction .rollbackOnly)

theorem Refusal.of_cancelled {loose : Prop} {failed cancelled : Bool} (hc : cancelled = true)
    (v : Value) :
    Refusal loose failed cancelled (.error (.transaction .cancelled) : Outcome H) (.ok v) := by
  unfold Refusal
  exact .inl ⟨hc, rfl⟩

theorem Refusal.of_fault {loose : Prop} {failed cancelled : Bool} (hc : cancelled = false)
    (hf : failed = true ∨ loose) (v : Value) :
    Refusal loose failed cancelled (.error (.transaction .rollbackOnly) : Outcome H) (.ok v) := by
  unfold Refusal
  exact .inr ⟨hc, hf, rfl⟩

/-- The accounts of transactions for which nothing is left to be done. With `loose` a transaction
    may have been rolled back although none of its own nested scopes failed; with `mixed` the
    context of a transaction may have been taken by another one. -/
inductive Over (loose mixed : Prop) (a : Account H) : Prop
  /-- The commit failed. -/
  | commitFailed {v : Value} {reason : String} (hf : ¬ mixed → a.failed = false)
      (hc : a.course =
        { work := some (some (.ok v, false)), calls := [.commit]
          answers := [(.commit, some reason)]
          returned := some (.error (.transaction (.commitFailed reason))) })
  /-- It was committed, and all effects ran. -/
  | served {v : Value} {started : List (List (Step H))}
      (hf : ¬ mixed → a.failed = false ∧ started = a.deferred)
      (hc : a.course =
        { work := some (some (.ok v, false)), calls := [.commit], answers := [(.commit, none)]
          started, returned := some (.ok v) })
  /-- It was committed, and its scope was dropped among the effects. -/
  | cut {v : Value} {started : List (List (Step H))}
      (hf : ¬ mixed → a.failed = false ∧ started <+: a.deferred)
      (hc : a.course =
        { work := some (some (.ok v, false)), calls := [.commit], answers := [(.commit, none)]
          started })
  /-- It was rolled back. -/
  | rolledBack {o r : Outcome H} {cancelled : Bool} {failure : Option String}
      (hr : Refusal loose a.failed cancelled r o)
      (hc : a.course =
        { work := some (some (o, cancelled)), calls := [.rollback]
          answers := [(.rollback, failure)], returned := some r })
  /-- Its scope was dropped while the call that ends it waited for its answer. -/
  | dropped {o : Outcome H} {cancelled : Bool} {t : Terminal}
      (hf : ¬ mixed → t = .commit → a.failed = false)
      (hc : a.course = { work := some (some (o, cancelled)), calls := [t], dropped := true })
  /-- Its work was cut off, and it was rolled back in the background. -/
  | cleaned {failure : Option String}
      (hc : a.course =
        { work := some none, calls := [.rollback], answers := [(.rollback, failure)] })
  /-- Its work was cut off, and it was given up. -/
  | lost (hc : a.course = { work := some none, lost := true })
  /-- Another scope had taken its context. -/
  | strayed (hx : mixed) {r : Outcome H}
      (hc : a.course = { strayed := true, returned := some r })

/-- A context `x` of a unit, the account of one of its transactions and the keepers of this one
    go together. -/
inductive Fits (loose mixed : Prop) (u : UnitId) (h : Handle)
    (x : Option (Context (List (Step H)))) (a : Account H) (ks : Multiset (Keeper H)) : Prop
  /-- Its work goes on; the context holds its effects until a nested scope fails. -/
  | working (hk : ks = {.item (.outer u h)}) (hc : a.course = {})
      (hx : ¬ mixed → ∃ c, x = some c ∧ c.handle = h ∧
        (c.rolledBack = false → a.failed = false ∧ c.effects = a.deferred) ∧
        (c.rolledBack = true → a.failed = true ∨ loose))
  /-- It is being committed. -/
  | committing {v : Value} {effects : List (List (Step H))}
      (hk : ks = {.item (.committing u h effects v)})
      (hf : ¬ mixed → a.failed = false ∧ effects = a.deferred)
      (hc : a.course = { work := some (some (.ok v, false)), calls := [.commit] })
  /-- It is being rolled back. -/
  | rollingBack {o r : Outcome H} {cancelled : Bool} (hk : ks = {.item (.rollingBack u h r)})
      (hr : Refusal loose a.failed cancelled r o)
      (hc : a.course = { work := some (some (o, cancelled)), calls := [.rollback] })
  /-- It has been committed, and the effects run. -/
  | serving {v : Value} {started rest : List (List (Step H))}
      (hk : ks = {.item (.effects u h started.length rest v)})
      (hf : ¬ mixed → a.failed = false ∧ started ++ rest = a.deferred)
      (hc : a.course =
        { work := some (some (.ok v, false)), calls := [.commit], answers := [(.commit, none)]
          started })
  /-- Its work was cut off, and it will be rolled back in the background. -/
  | waiting (hk : ks = {.cleanup (.fresh h)}) (hc : a.course = { work := some none })
  /-- It is being rolled back in the background. -/
  | cleaning {due : Nat} {failure : Option String}
      (hk : ks = {.cleanup (.waiting h due failure)})
      (hc : a.course = { work := some none, calls := [.rollback] })
  | finished (hk : ks = 0) (ho : Over loose mixed a)

end BootEngine.Work
