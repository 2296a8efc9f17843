import BootEngine.Proofs.Work.Effects

/-!
# Scopes that are cut off

When an outermost scope is dropped, or its work panics, its guard takes the context away and hands
the transaction to a rollback in the background. But the guard no longer watches over the call that
ends the transaction: a scope that is dropped while this call waits for its answer drops the call
with it, and nobody makes another one.

Apart from that a transaction is always ended, if there is a runtime for the background: in every
run that uses its unit in order, when its scope is over and its rollback in the background has come
to its end, a call that ends it has been answered, if and only if no such call has been dropped and
the transaction has not been given up for want of a runtime.

Contents:
* `IsOver`: nobody has to do anything for a transaction any more.
* `IsReleased`: what is said of such a transaction.
* `released_iff`: it has been ended just where no call was dropped.
* `background_ends`: the background comes to its end.
-/

namespace BootEngine.Work

open Transaction (Terminal Handle Source Context)

variable {H : Host} {T : UnitId → Prop} {u : UnitId} {h : Handle}

/-- The scope of a transaction is over, however it ended, and no rollback of it is left in the
    background. -/
structure IsOver (h : Handle) (m : Machine H) : Prop where
  scope : ∀ i ∈ m.items, i.owns h = false
  background : ∀ c ∈ m.world.background, c.handle ≠ h

/-- A call that ends a transaction has been made and answered. -/
def IsEnded (h : Handle) (marks : List (Mark H)) : Prop :=
  ∃ terminal failure, (account h marks).course.calls = [terminal] ∧
    (account h marks).course.answers = [(terminal, failure)]

/-- What is said of the transaction of a unit whose scope is over. -/
structure IsReleased (u : UnitId) (h : Handle) (m : Machine H) : Prop where
  /-- It has been ended, unless the call was dropped or it was given up. -/
  ended : IsEnded h m.world.marks ↔ .callDropped h ∉ m.world.marks ∧ .lost h ∉ m.world.marks
  /-- It is given up only without a runtime. -/
  kept : m.world.hasRuntime = true → .lost h ∉ m.world.marks
  /-- Its effects have run only after its commit. -/
  effects : ∀ v index effect older, .effectStarted v h index effect :: older <:+ m.world.marks →
    (account h older).course.answers = [(.commit, none)]
  /-- The unit has no context of it, and none at all when no outermost scope works. -/
  context : (∀ c, m.world.context? u = some c → c.handle ≠ h) ∧
    (outers u m.items = 0 → m.world.context? u = none)

theorem IsOver.keepers {m : Machine H} (ho : IsOver h m) : keepers h m.ledger = 0 := by
  have hscopes : m.items.filter (fun i => i.owns h) = 0 :=
    Multiset.filter_eq_nil.mpr fun i hi hown => by
      rw [ho.scope i hi] at hown
      cases hown
  have hcleanups : (m.world.background : Multiset Cleanup).filter (fun c => c.handle = h) = 0 :=
    Multiset.filter_eq_nil.mpr ho.background
  show scopeKeepers h m.items + cleanupKeepers h (m.world.background : Multiset Cleanup) = 0
  rw [scopeKeepers, cleanupKeepers, hscopes, hcleanups]
  rfl

/-- A transaction that nobody keeps has been ended just if no call was dropped and it was not given
    up. -/
theorem Over.ended_iff {loose mixed : Prop} {a : Account H} (ho : Over loose mixed a)
    (hm : ¬ mixed) :
    (∃ terminal failure, a.course.calls = [terminal] ∧ a.course.answers = [(terminal, failure)]) ↔
      a.course.dropped = false ∧ a.course.lost = false := by
  cases ho with
  | @commitFailed v reason hf hc =>
    rw [hc]
    exact ⟨fun _ => ⟨rfl, rfl⟩, fun _ => ⟨_, _, rfl, rfl⟩⟩
  | served hf hc =>
    rw [hc]
    exact ⟨fun _ => ⟨rfl, rfl⟩, fun _ => ⟨_, _, rfl, rfl⟩⟩
  | cut hf hc =>
    rw [hc]
    exact ⟨fun _ => ⟨rfl, rfl⟩, fun _ => ⟨_, _, rfl, rfl⟩⟩
  | rolledBack hr hc =>
    rw [hc]
    exact ⟨fun _ => ⟨rfl, rfl⟩, fun _ => ⟨_, _, rfl, rfl⟩⟩
  | cleaned hc =>
    rw [hc]
    exact ⟨fun _ => ⟨rfl, rfl⟩, fun _ => ⟨_, _, rfl, rfl⟩⟩
  | dropped hf hc =>
    rw [hc]
    refine ⟨?_, fun hd => nomatch hd.1⟩
    rintro ⟨terminal, failure, -, hanswers⟩
    cases hanswers
  | lost hc =>
    rw [hc]
    refine ⟨?_, fun hl => nomatch hl.2⟩
    rintro ⟨terminal, failure, -, hanswers⟩
    cases hanswers
  | strayed hx hc => exact absurd hx hm

/-- In every run that uses a unit in order: when the scope of a transaction is over and its rollback
    in the background has come to its end, the transaction has been ended, unless the call was
    dropped or there was no runtime; and what is told of it has been done. -/
theorem released_iff {m : Machine H} (hr : Reached T m) (hu : T u)
    (ho : (account h m.world.marks).opener = some u) (hover : IsOver h m) :
    IsReleased u h m ∧ TellsTrue T m := by
  have htimely := hr.timely
  have horderly := hr.orderly hu
  have hlives := hr.lives hu
  have hfits := hlives.fits h ho
  rw [hover.keepers] at hfits
  refine ⟨?_, hr.tellsTrue⟩
  constructor
  case ended =>
    rw [← dropped_iff, ← lost_iff, Bool.not_eq_true, Bool.not_eq_true]
    exact hfits.over_of_keepers.ended_iff horderly.unmixed
  case kept =>
    intro hruntime
    exact hr.keeps.history.kept hruntime h
  case effects =>
    intro v index effect older hs
    have holder := (List.suffix_cons _ _).trans hs
    obtain ⟨hopener, hstart⟩ := htimely.at hs
    have hv := htimely.opener holder hopener
    obtain rfl : v = u := Option.some.inj (hv.symm.trans ho)
    exact (hstart (horderly.regular.of_suffix holder)).1
  case context =>
    refine ⟨fun c hc he => ?_, fun hnone => ?_⟩
    · have hkeepers := hlives.holder horderly.unmixed c hc
      rw [he, hover.keepers] at hkeepers
      simp at hkeepers
    · by_contra hx
      exact (hr.keeps.working hu).mp hx hnone

/-! ## The background comes to its end -/

/-- The answer to a rollback in the background is there by a time. -/
def Cleanup.IsDue (now : Nat) : Cleanup → Prop
  | .fresh _ => False
  | .waiting _ due _ => due ≤ now

/-- A rollback in the background has started. -/
def Cleanup.IsStarted (c : Cleanup) : Prop := ∃ now, c.IsDue now

theorem now_endCleanup (h : Handle) (failure : Option String) (w : World H) :
    (w.endCleanup h failure).now = w.now := by
  cases failure <;> rfl

theorem background_endCleanup (h : Handle) (failure : Option String) (w : World H) :
    (w.endCleanup h failure).background = w.background := by
  cases failure <;> rfl

/-- Rollbacks whose answers are there end, all of them. -/
theorem background_foldl_of_isDue (cs : List Cleanup) (w : World H) (hcs : ∀ c ∈ cs, c.IsDue w.now) :
    (cs.foldl World.pollCleanup w).background = w.background := by
  induction cs generalizing w with
  | nil => rfl
  | cons c rest ih =>
    have hdue := hcs c (List.mem_cons_self ..)
    cases c with
    | fresh h => cases hdue
    | waiting h due failure =>
      have hpoll : w.pollCleanup (.waiting h due failure) = w.endCleanup h failure := if_pos hdue
      rw [List.foldl_cons, hpoll, ih, background_endCleanup]
      intro c hc
      rw [now_endCleanup]
      exact hcs c (List.mem_cons_of_mem _ hc)

/-- What is left in the background after a look at it has started. -/
theorem isStarted_foldl (cs : List Cleanup) (w : World H) (hw : ∀ c ∈ w.background, c.IsStarted) :
    ∀ c ∈ (cs.foldl World.pollCleanup w).background, c.IsStarted := by
  induction cs generalizing w with
  | nil => exact hw
  | cons c rest ih =>
    refine ih _ fun c' hc' => ?_
    cases c with
    | waiting h due failure =>
      simp only [World.pollCleanup] at hc'
      split at hc'
      · rw [background_endCleanup] at hc'
        exact hw c' hc'
      · rcases List.mem_append.mp hc' with hin | hin
        · exact hw c' hin
        · rw [List.mem_singleton.mp hin]
          exact ⟨due, Nat.le_refl due⟩
    | fresh h =>
      have hback : (w.startFinish .rollback h).2.background = w.background := by
        show ((w.mark _).recordCall _).background = _
        unfold World.recordCall
        split <;> rfl
      simp only [World.pollCleanup] at hc'
      split at hc'
      · rw [background_endCleanup, hback] at hc'
        exact hw c' hc'
      · rcases List.mem_append.mp hc' with hin | hin
        · exact hw c' (hback ▸ hin)
        · rw [List.mem_singleton.mp hin]
          exact ⟨_, Nat.le_refl _⟩

/-- There is a time by which the answers to all rollbacks that have started are there. -/
theorem exists_isDue (cs : List Cleanup) (hcs : ∀ c ∈ cs, c.IsStarted) :
    ∃ now, ∀ c ∈ cs, c.IsDue now := by
  induction cs with
  | nil => exact ⟨0, fun c hc => nomatch hc⟩
  | cons c rest ih =>
    obtain ⟨first, hfirst⟩ := hcs c (List.mem_cons_self ..)
    obtain ⟨last, hlast⟩ := ih fun c' hc' => hcs c' (List.mem_cons_of_mem _ hc')
    have hmono : ∀ (c : Cleanup) (now : Nat), now ≤ max first last → c.IsDue now →
        c.IsDue (max first last) := by
      intro c now hle hdue
      cases c with
      | fresh h => cases hdue
      | waiting h due failure => exact Nat.le_trans hdue hle
    refine ⟨max first last, fun c' hc' => ?_⟩
    rcases List.mem_cons.mp hc' with rfl | hin
    · exact hmono _ first (Nat.le_max_left ..) hfirst
    · exact hmono _ last (Nat.le_max_right ..) (hlast c' hin)

/-- From everywhere a run can go on, by the background and the clock alone, until nothing is left in
    the background. -/
theorem background_ends (m : Machine H) :
    ∃ m', Run T m m' ∧ m'.items = m.items ∧ m'.world.background = [] := by
  obtain ⟨w, layers, focus⟩ := m
  obtain ⟨now, hdue⟩ := exists_isDue w.runBackground.background
    (isStarted_foldl w.background { w with background := [] } fun c hc => nomatch hc)
  have hstart : Run T ⟨w, layers, focus⟩ ⟨w.runBackground, layers, focus⟩ := .single .background
  refine ⟨_, (hstart.tail (.elapse now)).tail .background, rfl, ?_⟩
  exact background_foldl_of_isDue _ { w.runBackground with now, background := [] } hdue

/-- A world on a source that takes some time to commit. -/
def slowCommit (delay : Nat) : World scriptHost :=
  .fresh (.scripted ⟨"scripted", ⟨0, [], 0⟩, ⟨delay, [], 0⟩, ⟨0, [], 0⟩⟩) none ()

/-- A scope that is dropped while a nested scope of it waits; the background has run. -/
def droppedAtWork : Machine scriptHost :=
  (Machine.settleWithin 40 ⟨slowCommit 0, [], .exec 0 .null
    [.scope .here .lenient [.scope .here .lenient [.sleep 10]]]⟩).dropped.cleaned

theorem reached_droppedAtWork : Reached (· ∈ [0]) droppedAtWork :=
  (Reached.settleWithin 40 ⟨_, 0, .null, _, World.fresh_isQuiet _ _ _, .refl⟩
    (by decide)).dropped.cleaned

theorem isOver_droppedAtWork : IsOver 1 droppedAtWork where
  scope i hi := absurd hi (Multiset.notMem_zero i)
  background _ hc := nomatch hc

/-- Its transaction has been rolled back. -/
theorem released_iff_droppedAtWork :
    Reached (· ∈ [0]) droppedAtWork ∧ 0 ∈ [0] ∧
      (account 1 droppedAtWork.world.marks).opener = some 0 ∧ IsOver 1 droppedAtWork ∧
      (account 1 droppedAtWork.world.marks).course.answers = [(.rollback, none)] ∧
      IsReleased 0 1 droppedAtWork ∧ TellsTrue (· ∈ [0]) droppedAtWork :=
  ⟨reached_droppedAtWork, by decide, rfl, isOver_droppedAtWork, rfl,
    released_iff reached_droppedAtWork (by decide) rfl isOver_droppedAtWork⟩

/-- A scope with a time limit whose work ends at once, on a source that commits later. -/
def cutCommit : List (Step scriptHost) := [.timeout 5 [.give .null]]

/-- The scope is dropped inside the commit: no call that ends its transaction is ever answered, and
    no rollback is left to be made. -/
theorem dropped_commit_stays_open :
    (runScript cutCommit (slowCommit 10)).1.background = [] ∧
      (account 1 (runScript cutCommit (slowCommit 10)).1.marks).opener = some 0 ∧
      (account 1 (runScript cutCommit (slowCommit 10)).1.marks).course =
        { work := some (some (.ok .null, false)), calls := [.commit], dropped := true } ∧
      ¬ IsEnded 1 (runScript cutCommit (slowCommit 10)).1.marks := by
  have hcourse : (account 1 (runScript cutCommit (slowCommit 10)).1.marks).course =
      { work := some (some (.ok .null, false)), calls := [.commit], dropped := true } := rfl
  refine ⟨rfl, rfl, hcourse, ?_⟩
  rintro ⟨terminal, failure, -, hanswers⟩
  rw [hcourse] at hanswers
  cases hanswers

end BootEngine.Work
