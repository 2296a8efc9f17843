import BootEngine.Proofs.Work.Marks
import BootEngine.Work.Script

/-!
# How outermost scopes end

On a unit that is used in order an outermost scope asks once for a transaction, and nested scopes do
not. If it receives one, one call ends it, after the work and when no nested scope runs any more:
a commit if the work ended well, no nested scope failed and the unit was not cancelled by then, and
a rollback else. The outcome of the scope follows from the same three, and from the answer to a
commit. All this is told by the marks of the run, and they are true: the source has been asked and
called for what they tell and for nothing else, and the scope has ended with the outcome they tell.

Contents:
* `terminalAfter`, `outcomeAfter`: the call and the outcome that the end of the work leads to.
* `Settles`: what is told of a scope that has returned.
* `ScopesSettle`, `scopes_settle`: what is told of the scopes of a unit, in every run that uses it
  in order.
-/

namespace BootEngine.Work

open Transaction (Terminal Handle Source Context)

variable {H : Host} {T : UnitId → Prop} {u : UnitId} {h : Handle}

/-- The call that ends a transaction after its work. -/
def terminalAfter (failed cancelled : Bool) : Outcome H → Terminal
  | .ok _ => if failed || cancelled then .rollback else .commit
  | .error _ => .rollback

/-- The outcome of an outermost scope after its work, if the call that ends its transaction is
    answered. -/
def outcomeAfter (failed cancelled : Bool) (failure : Option String) : Outcome H → Outcome H
  | .error e => .error e
  | .ok value =>
    if cancelled then .error (.transaction .cancelled)
    else if failed then .error (.transaction .rollbackOnly)
    else
      match failure with
      | none => .ok value
      | some reason => .error (.transaction (.commitFailed reason))

/-- A transaction has been ended by one call, which was answered, and its scope has returned `r`:
    all as its work ended, and as its unit was cancelled by then. -/
structure Settles (a : Account H) (work : Outcome H) (cancelled : Bool) (failure : Option String)
    (r : Outcome H) : Prop where
  course : a.course =
    { work := some (some (work, cancelled)), calls := [terminalAfter a.failed cancelled work]
      answers := [(terminalAfter a.failed cancelled work, failure)]
      started := a.course.started, returned := some r }
  outcome : r = outcomeAfter a.failed cancelled failure work

/-- A scope that has returned has failed to commit, or has committed and served all effects, or has
    rolled back. -/
theorem Over.of_returned {loose mixed : Prop} {a : Account H} {r : Outcome H}
    (ho : Over loose mixed a) (hm : ¬ mixed) (hr : a.course.returned = some r) :
    (∃ v reason, a.failed = false ∧ a.course =
      { work := some (some (.ok v, false)), calls := [.commit]
        answers := [(.commit, some reason)], returned := some r } ∧
      r = .error (.transaction (.commitFailed reason))) ∨
    (∃ v, a.failed = false ∧ a.course =
      { work := some (some (.ok v, false)), calls := [.commit], answers := [(.commit, none)]
        started := a.deferred, returned := some r } ∧ r = .ok v) ∨
    ∃ o cancelled failure, Refusal loose a.failed cancelled r o ∧ a.course =
      { work := some (some (o, cancelled)), calls := [.rollback]
        answers := [(.rollback, failure)], returned := some r } := by
  cases ho with
  | @commitFailed v reason hclear hc =>
    rw [hc] at hr
    obtain rfl := Option.some.inj hr
    exact .inl ⟨v, reason, hclear hm, hc, rfl⟩
  | @served v started hclear hc =>
    obtain ⟨hfailed, rfl⟩ := hclear hm
    rw [hc] at hr
    obtain rfl := Option.some.inj hr
    exact .inr (.inl ⟨v, hfailed, hc, rfl⟩)
  | @rolledBack o r' cancelled failure hrefused hc =>
    rw [hc] at hr
    obtain rfl := Option.some.inj hr
    exact .inr (.inr ⟨o, cancelled, failure, hrefused, hc⟩)
  | strayed hx hc => exact absurd hx hm
  | cut hf hc => rw [hc] at hr; cases hr
  | dropped hf hc => rw [hc] at hr; cases hr
  | cleaned hc => rw [hc] at hr; cases hr
  | lost hc => rw [hc] at hr; cases hr

theorem Over.settles {loose mixed : Prop} {a : Account H} {r : Outcome H} (ho : Over loose mixed a)
    (hl : ¬ loose) (hm : ¬ mixed) (hr : a.course.returned = some r) :
    ∃ work cancelled failure, Settles a work cancelled failure r := by
  rcases ho.of_returned hm hr with ⟨v, reason, hfailed, hc, rfl⟩ | ⟨v, hfailed, hc, rfl⟩ |
    ⟨o, cancelled, failure, hrefused, hc⟩
  · refine ⟨.ok v, false, some reason, ?_, ?_⟩
    · rw [hc, hfailed]
      rfl
    · rw [hfailed]
      rfl
  · refine ⟨.ok v, false, none, ?_, ?_⟩
    · rw [hc, hfailed]
      rfl
    · rw [hfailed]
      rfl
  · refine ⟨o, cancelled, failure, ?_⟩
    cases o with
    | error e =>
      refine ⟨hc.trans ?_, hrefused⟩
      rw [hc]
      rfl
    | ok v =>
      rcases hrefused with ⟨rfl, rfl⟩ | ⟨rfl, hfailed, rfl⟩
      · refine ⟨hc.trans ?_, rfl⟩
        rw [hc, terminalAfter, Bool.or_true]
        rfl
      · rw [or_iff_left hl] at hfailed
        refine ⟨hc.trans ?_, by rw [hfailed]; rfl⟩
        rw [hc, hfailed]
        rfl

/-- A scope that has returned has nothing left to do. -/
theorem Fits.over_of_returned {loose mixed : Prop} {x : Option (Context (List (Step H)))}
    {a : Account H} {ks : Multiset (Keeper H)} (hf : Fits loose mixed u h x a ks)
    (hr : a.course.returned ≠ none) : ks = 0 ∧ Over loose mixed a := by
  cases hf with
  | finished hk ho => exact ⟨hk, ho⟩
  | working hk hc hx => exact absurd (by rw [hc]) hr
  | committing hk hf hc => exact absurd (by rw [hc]) hr
  | rollingBack hk hf hc => exact absurd (by rw [hc]) hr
  | serving hk hf hc => exact absurd (by rw [hc]) hr
  | waiting hk hc => exact absurd (by rw [hc]) hr
  | cleaning hk hc => exact absurd (by rw [hc]) hr

/-! ## Scopes of a unit -/

/-- What the marks of a run tell about the outermost scopes of a unit. -/
structure ScopesSettle (u : UnitId) (marks : List (Mark H)) : Prop where
  /-- When a scope asks for a transaction, all that asked before have left: each asks once, and
      nested scopes do not ask. -/
  asks : ∀ older, .requested u :: older <:+ marks → left u older = asked u older
  /-- A nested scope begins on a transaction whose work goes on, and that nothing has ended yet. -/
  nests : ∀ h older, .nestedBegun u h :: older <:+ marks →
    (account h older).opener = some u ∧ (account h older).course = {}
  /-- A scope that receives no transaction ends with the reason for it. -/
  unserved : ∀ e older, .unserved u e :: older <:+ marks →
    (∃ reason, e = .beginFailed reason) ∨ (∃ ms, e = .acquireTimeout ms) ∨
      e = .cancelled ∧ .cancelled u ∈ older
  /-- A call that ends a transaction is the first one, and comes when its work has ended and no
      nested scope runs. -/
  calls : ∀ t h older, .ending t h :: older <:+ marks → (account h older).opener = some u →
    (account h older).course.work ≠ none ∧ (account h older).running = 0 ∧
      (account h older).course.calls = []
  /-- A scope that has returned has settled its transaction as its work ended, as its nested scopes
      ended, and as its unit was cancelled by then. -/
  settles : ∀ h r, (account h marks).opener = some u →
    (account h marks).course.returned = some r →
    ∃ work cancelled failure older, Settles (account h marks) work cancelled failure r ∧
      .workEnded u h work cancelled :: older <:+ marks ∧
      (cancelled = true ↔ .cancelled u ∈ older) ∧
      ((account h marks).failed = true ↔ ∃ outcome older, .nestedEnded u h outcome :: older <:+ marks ∧
        endedWell outcome = false) ∧
      (account h marks).overlapped = false

theorem nestedEnded_iff {m : Machine H} (hr : Reached T m) (hu : T u)
    (ho : (account h m.world.marks).opener = some u) :
    (account h m.world.marks).failed = true ↔
      ∃ outcome older, .nestedEnded u h outcome :: older <:+ m.world.marks ∧
        endedWell outcome = false := by
  have htimely := hr.timely
  rw [failed_iff]
  constructor
  · rintro ⟨v, outcome, older, hsuffix, -, hended⟩
    have hopener := htimely.opener ((List.suffix_cons _ _).trans hsuffix) (htimely.at hsuffix).1
    obtain rfl : v = u := Option.some.inj (hopener.symm.trans ho)
    exact ⟨outcome, older, hsuffix, hended⟩
  · rintro ⟨outcome, older, hsuffix, hended⟩
    have hcourse := (htimely.at hsuffix).2 hu
    exact ⟨u, outcome, older, hsuffix, by rw [hcourse], hended⟩

/-- In every run that uses a unit in order, its outermost scopes settle, and what is told of them
    has been done. -/
theorem scopes_settle {m : Machine H} (hr : Reached T m) (hu : T u) :
    ScopesSettle u m.world.marks ∧ TellsTrue T m := by
  have htimely := hr.timely
  have horderly := hr.orderly hu
  refine ⟨?_, hr.tellsTrue⟩
  constructor
  case asks =>
    intro older hs
    exact htimely.at hs hu
  case nests =>
    intro h older hs
    obtain ⟨hopener, hcourse⟩ := htimely.at hs
    exact ⟨hopener, hcourse hu⟩
  case unserved =>
    intro e older hs
    exact htimely.at hs
  case calls =>
    intro t h older hs ho
    have hregular := horderly.regular.of_suffix ((List.suffix_cons _ _).trans hs)
    obtain ⟨hwork, hcalls, hrunning⟩ := htimely.at hs u ho hregular
    exact ⟨hwork, hrunning hu, hcalls⟩
  case settles =>
    intro h r ho hret
    have hfits := (hr.lives hu).fits h ho
    obtain ⟨-, hover⟩ := hfits.over_of_returned (ne_of_eq_of_ne hret (Option.some_ne_none r))
    obtain ⟨work, cancelled, failure, hsettles⟩ :=
      hover.settles (not_not_intro hu) horderly.unmixed hret
    -- The end of the work has been written down, and by then who had been cancelled.
    obtain ⟨v, older, hsuffix⟩ := exists_workEnded (congrArg Course.work hsettles.course)
    obtain ⟨hopener, hcancelled⟩ := htimely.at hsuffix
    have hv := htimely.opener ((List.suffix_cons _ _).trans hsuffix) hopener
    obtain rfl : v = u := Option.some.inj (hv.symm.trans ho)
    exact ⟨work, cancelled, failure, older, hsettles, hsuffix, hcancelled,
      nestedEnded_iff hr hu ho, horderly.apart h ho⟩

/-- A run in which a nested scope fails and its outermost scope does not mind. -/
def swallowedFailure : Machine scriptHost :=
  Machine.settleWithin 40
    ⟨World.fresh (.scripted ⟨"scripted", ⟨0, [], 0⟩, ⟨0, [], 0⟩, ⟨0, [], 0⟩⟩) none (), [],
      .exec 0 .null [.scope .here .lenient [.scope .here .lenient [.fail "refused"], .give .null]]⟩

theorem reached_swallowedFailure : Reached (· ∈ [0]) swallowedFailure :=
  .settleWithin 40 ⟨_, 0, .null, _, World.fresh_isQuiet _ _ _, .refl⟩ (by decide)

/-- The failure of the nested scope is not lost: the outermost one is rolled back. -/
theorem scopes_settle_swallowedFailure :
    Reached (· ∈ [0]) swallowedFailure ∧ 0 ∈ [0] ∧
      (account 1 swallowedFailure.world.marks).course.returned =
        some (.error (.transaction .rollbackOnly)) ∧
      ScopesSettle 0 swallowedFailure.world.marks ∧ TellsTrue (· ∈ [0]) swallowedFailure :=
  ⟨reached_swallowedFailure, by decide, rfl, scopes_settle reached_swallowedFailure (by decide)⟩

end BootEngine.Work
