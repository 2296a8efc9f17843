import BootEngine.Proofs.Work.Effects

/-!
# Scopes that interleave

Scopes of one unit may be made by branches that run side by side. Two of them may ask for a
transaction before either has received one; then the context of the one is overwritten by the other,
and one of the two transactions is lost: its scope does not find its context, and nothing ends it.
And the work of the outermost scope may end while a nested scope of another branch still runs.

Apart from that nothing is lost: in every run whose scopes have all returned, each transaction has
been ended by one call, effects have followed the commit of their own transaction, and no
transaction with a failed or running nested scope has been committed, if and only if no context has
been overwritten and no transaction has been committed beside a running nested scope.

Contents:
* `HaveReturned`, `IsApart`, `NothingLost`: what is said of the scopes of a unit.
* `exists_stray`: an overwritten context leaves a scope without one.
* `nothing_lost_iff`: nothing is lost just where scopes have stood apart.
-/

namespace BootEngine.Work

open Transaction (Terminal Handle Source Context)

variable {H : Host} {T : UnitId → Prop} {u : UnitId} {h : Handle}

/-- All scopes of a unit that received a transaction have returned, and programs have left it to
    them to end it. -/
structure HaveReturned (u : UnitId) (marks : List (Mark H)) : Prop where
  returned : ∀ h, (account h marks).opener = some u → (account h marks).course.returned ≠ none
  uncut : ∀ h, .interrupted u h ∉ marks
  undirected : ∀ h, .direct u h ∉ marks

/-- No scope of a unit has overwritten the context of another one, and none has been committed while
    a nested scope ran on its transaction. -/
structure IsApart (u : UnitId) (marks : List (Mark H)) : Prop where
  unmixed : ¬ IsMixed u marks
  alone : ∀ h, (account h marks).opener = some u → (account h marks).course.calls = [.commit] →
    (account h marks).overlapped = false

/-- Every transaction of a unit has been ended by one call, effects have been put off in it before
    its commit, and it has not been committed if a nested scope had failed or was running. -/
structure NothingLost (u : UnitId) (marks : List (Mark H)) : Prop where
  ended : ∀ h, (account h marks).opener = some u →
    ∃ terminal, (account h marks).course.calls = [terminal]
  effects : ∀ h index effect older, .effectStarted u h index effect :: older <:+ marks →
    (account h older).course.answers = [(.commit, none)] ∧ effect ∈ (account h older).deferred
  committed : ∀ h, (account h marks).opener = some u →
    (account h marks).course.calls = [.commit] →
    (account h marks).failed = false ∧ (account h marks).overlapped = false

theorem HaveReturned.regular {marks : List (Mark H)} (hu : HaveReturned u marks) :
    Regular u marks := ⟨hu.undirected, .inr hu.uncut⟩

/-- When all scopes have returned, none is at work. -/
theorem outers_eq_zero_of_haveReturned {m : Machine H} (hr : Reached T m)
    (hu : HaveReturned u m.world.marks) : outers u m.items = 0 := by
  by_contra ho
  obtain ⟨h, s, hs⟩ := exists_outer_of_ne_zero ho
  have hinvariant := hr.keeps.invariant
  have hopen : (m.ledger.account h).opener = some u := hinvariant.sound.opener_of_eq_cons hs rfl
  have hlives := (hinvariant.kept u).lives hu.regular
  obtain ⟨-, hfits⟩ := hlives.fits_of_owns hs (beq_self_eq_true h) hopen
  have hcourse : (account h m.world.marks).course = {} := hfits.of_outer.1
  exact hu.returned h hopen (by rw [hcourse])

/-- Where a context has been overwritten, some scope has not found its context in the end. -/
theorem exists_stray {m : Machine H} (hr : Reached T m) (hu : HaveReturned u m.world.marks)
    (hmix : IsMixed u m.world.marks) : ∃ h, .strayed u h ∈ m.world.marks := by
  obtain ⟨k, hk⟩ := hmix
  have hbalance := hr.keeps.history.balance u
  have hcuts : cuts u m.ledger.marks = 0 := by
    refine List.countP_eq_zero.mpr fun mark hin hcut => ?_
    cases mark with
    | interrupted v h =>
      obtain rfl : v = u := beq_iff_eq.mp hcut
      exact hu.uncut h hin
    | _ => cases hcut
  have hreplaced : 0 < replacements u m.ledger.marks :=
    List.countP_pos_iff.mpr ⟨_, hk, beq_self_eq_true u⟩
  have hworking := hbalance.working
  have hheld := hbalance.held hcuts
  have houters : outers u m.ledger.items = 0 := outers_eq_zero_of_haveReturned hr hu
  have hstrays : 0 < strays u m.ledger.marks := by omega
  obtain ⟨mark, hin, hstray⟩ := List.countP_pos_iff.mp hstrays
  cases mark with
  | strayed v h =>
    obtain rfl : v = u := beq_iff_eq.mp hstray
    exact ⟨h, hin⟩
  | _ => cases hstray

theorem Over.ended {loose mixed : Prop} {a : Account H} (ho : Over loose mixed a) (hm : ¬ mixed)
    (hr : a.course.returned ≠ none) :
    (∃ terminal, a.course.calls = [terminal]) ∧ (a.course.calls = [.commit] → a.failed = false) := by
  obtain ⟨r, hr⟩ := Option.ne_none_iff_exists'.mp hr
  rcases ho.of_returned hm hr with ⟨v, reason, hfailed, hc, -⟩ | ⟨v, hfailed, hc, -⟩ |
    ⟨o, cancelled, failure, -, hc⟩
  · exact ⟨⟨.commit, by rw [hc]⟩, fun _ => hfailed⟩
  · exact ⟨⟨.commit, by rw [hc]⟩, fun _ => hfailed⟩
  · refine ⟨⟨.rollback, by rw [hc]⟩, fun he => ?_⟩
    rw [hc] at he
    cases he

/-- A scope that has not found its context has made no call. -/
theorem Over.calls_of_strayed {loose mixed : Prop} {a : Account H} (ho : Over loose mixed a)
    (hs : a.course.strayed = true) : a.course.calls = [] := by
  cases ho with
  | strayed hx hc => rw [hc]
  | commitFailed hf hc => rw [hc] at hs; cases hs
  | served hf hc => rw [hc] at hs; cases hs
  | rolledBack hr hc => rw [hc] at hs; cases hs
  | cut hf hc => rw [hc] at hs; cases hs
  | dropped hf hc => rw [hc] at hs; cases hs
  | cleaned hc => rw [hc] at hs; cases hs
  | lost hc => rw [hc] at hs; cases hs

/-- In every run, however scopes interleave: when all scopes of a unit have returned, nothing is
    lost if and only if they have stood apart, and what is told of them has been done. -/
theorem nothing_lost_iff {m : Machine H} (hr : Reached T m) (hu : HaveReturned u m.world.marks) :
    (NothingLost u m.world.marks ↔ IsApart u m.world.marks) ∧ TellsTrue T m := by
  have hlives := (hr.keeps.invariant.kept u).lives hu.regular
  have htimely := hr.timely
  have hover : ∀ h, (account h m.world.marks).opener = some u →
      Over (¬ T u) (IsMixed u m.world.marks) (account h m.world.marks) := fun h ho =>
    ((hlives.fits h ho).over_of_returned (hu.returned h ho)).2
  refine ⟨?_, hr.tellsTrue⟩
  constructor
  · intro hlost
    refine ⟨?_, fun h ho hc => (hlost.committed h ho hc).2⟩
    intro hmix
    -- The scope whose context was taken has made no call.
    obtain ⟨h, hin⟩ := exists_stray hr hu hmix
    obtain ⟨older, hsuffix⟩ := exists_suffix_of_mem hin
    have hopener := htimely.opener ((List.suffix_cons _ _).trans hsuffix) (htimely.at hsuffix)
    obtain ⟨terminal, hcalls⟩ := hlost.ended h hopener
    rw [(hover h hopener).calls_of_strayed (strayed_of_mem hin)] at hcalls
    cases hcalls
  · intro hapart
    constructor
    case ended =>
      intro h ho
      exact ((hover h ho).ended hapart.unmixed (hu.returned h ho)).1
    case effects =>
      intro h index effect older hs
      have holder := (List.suffix_cons _ _).trans hs
      obtain ⟨-, hstart⟩ := htimely.at hs
      obtain ⟨hanswers, -, hdeferred⟩ := hstart (hu.regular.of_suffix holder)
      exact ⟨hanswers,
        List.mem_of_getElem? (hdeferred fun hm => hapart.unmixed (hm.mono holder))⟩
    case committed =>
      intro h ho hc
      exact ⟨((hover h ho).ended hapart.unmixed (hu.returned h ho)).2 hc, hapart.alone h ho hc⟩

/-! ## Branches side by side -/

theorem haveReturned_of_all {marks : List (Mark H)}
    (h : (marks.all fun
      | .opened _ k => (account k marks).course.returned.isSome
      | .interrupted .. => false
      | .direct .. => false
      | _ => true) = true) : HaveReturned u marks where
  returned k ho := by
    have hk := List.all_eq_true.mp h _ (mem_of_opener ho)
    exact Option.isSome_iff_ne_none.mp hk
  uncut k hin := by
    have hk := List.all_eq_true.mp h _ hin
    cases hk
  undirected k hin := by
    have hk := List.all_eq_true.mp h _ hin
    cases hk

/-- A world on a source that takes some time to begin a transaction. -/
def slowBegin (delay : Nat) : World scriptHost :=
  .fresh (.scripted ⟨"scripted", ⟨delay, [], 0⟩, ⟨0, [], 0⟩, ⟨0, [], 0⟩⟩) none ()

/-- Two branches with a scope each; both wait for some time inside. -/
def twoScopes (first second : Nat) : List (Step scriptHost) :=
  [.join [[.scope .here .lenient [.sleep first, .give .null]],
    [.scope .here .lenient [.sleep second, .give .null]]]]

/-- On a fast source the scope of the second branch is nested in the one of the first. If it ends
    first, nothing is lost. -/
theorem nothing_lost_iff_twoScopes : ∃ m : Machine scriptHost, Reached (· ∈ []) m ∧
    m.world = (runScript (twoScopes 10 5) (slowBegin 0)).1 ∧
    (account 1 m.world.marks).course.returned = some (.ok .null) ∧ HaveReturned 0 m.world.marks ∧
    (NothingLost 0 m.world.marks ↔ IsApart 0 m.world.marks) ∧ TellsTrue (· ∈ []) m := by
  obtain ⟨m, hr, hm⟩ := runScript_reached (World.fresh_isQuiet _ _ _)
    (scriptInOrder_nil (twoScopes 10 5) (slowBegin 0))
  have hreturned : HaveReturned 0 m.world.marks := by
    rw [hm]
    exact haveReturned_of_all (by decide)
  exact ⟨m, hr, hm, by rw [hm]; rfl, hreturned, nothing_lost_iff hr hreturned⟩

/-- On a slow source both scopes are outermost ones. The second one overwrites the context of the
    first and does not find its own in the end: nothing ends its transaction. -/
theorem overwritten_context_loses_transaction :
    HaveReturned 0 (runScript (twoScopes 5 5) (slowBegin 10)).1.marks ∧
      (account 2 (runScript (twoScopes 5 5) (slowBegin 10)).1.marks).opener = some 0 ∧
      (account 2 (runScript (twoScopes 5 5) (slowBegin 10)).1.marks).course =
        { strayed := true, returned := some (.error (.transaction .noActiveTransaction)) } ∧
      ¬ NothingLost 0 (runScript (twoScopes 5 5) (slowBegin 10)).1.marks := by
  refine ⟨haveReturned_of_all (by decide), rfl, rfl, fun hl => ?_⟩
  obtain ⟨terminal, hcalls⟩ := hl.ended 2 rfl
  have hnone : (account 2 (runScript (twoScopes 5 5) (slowBegin 10)).1.marks).course.calls = [] :=
    rfl
  rw [hnone] at hcalls
  cases hcalls

/-- On a fast source the nested scope of the second branch may outlive the work of the first: the
    transaction is committed all the same. -/
example :
    (account 1 (runScript (twoScopes 5 10) (slowBegin 0)).1.marks).course.calls = [.commit] ∧
      (account 1 (runScript (twoScopes 5 10) (slowBegin 0)).1.marks).overlapped = true :=
  ⟨rfl, rfl⟩

end BootEngine.Work
