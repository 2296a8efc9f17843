import BootEngine.Proofs.Work.Outcome

/-!
# Deferred effects

On a unit that is used in order the effects of a transaction start one after another in the order in
which they were put off, after its commit has succeeded; and a scope that returns after a successful
commit returns the value of its work, when all its effects have started. An effect that has started
is a program that is run. How it ends does not matter to any of this.

Contents:
* `Fits.started_first`, `Over.serves_all`: what an account tells about its effects.
* `EffectsFollow`: what is told of the effects of a unit.
* `EffectsRun`: what happens to their programs.
* `effects_follow`: both, in every run that uses the unit in order.
-/

namespace BootEngine.Work

open Transaction (Terminal Handle Source Context)

variable {H : Host} {T : UnitId → Prop} {u : UnitId} {h : Handle} {loose mixed : Prop}
  {x : Option (Context (List (Step H)))} {a : Account H} {ks : Multiset (Keeper H)}

/-! ## Accounts -/

theorem Over.started_first (ho : Over loose mixed a) (hm : ¬ mixed) :
    a.course.started <+: a.deferred := by
  cases ho with
  | served hf hc =>
    rw [hc]
    exact (hf hm).2 ▸ List.prefix_refl _
  | cut hf hc =>
    rw [hc]
    exact (hf hm).2
  | strayed hx hc => exact absurd hx hm
  | commitFailed hf hc => rw [hc]; exact List.nil_prefix
  | rolledBack hr hc => rw [hc]; exact List.nil_prefix
  | dropped hf hc => rw [hc]; exact List.nil_prefix
  | cleaned hc => rw [hc]; exact List.nil_prefix
  | lost hc => rw [hc]; exact List.nil_prefix

/-- The effects that have started are the first ones that were put off. -/
theorem Fits.started_first (hf : Fits loose mixed u h x a ks) (hm : ¬ mixed) :
    a.course.started <+: a.deferred := by
  cases hf with
  | serving hk hf hc =>
    rw [hc, ← (hf hm).2]
    exact List.prefix_append _ _
  | finished hk ho => exact ho.started_first hm
  | working hk hc hx => rw [hc]; exact List.nil_prefix
  | committing hk hf hc => rw [hc]; exact List.nil_prefix
  | rollingBack hk hr hc => rw [hc]; exact List.nil_prefix
  | waiting hk hc => rw [hc]; exact List.nil_prefix
  | cleaning hk hc => rw [hc]; exact List.nil_prefix

/-- A scope whose commit has succeeded returns the value of its work, and then all effects have
    started. -/
theorem Over.serves_all {r : Outcome H} (ho : Over loose mixed a) (hm : ¬ mixed)
    (hr : a.course.returned = some r) (hc : a.course.answers = [(.commit, none)]) :
    ∃ value cancelled, a.course.work = some (some (.ok value, cancelled)) ∧ r = .ok value ∧
      a.course.started = a.deferred := by
  rcases ho.of_returned hm hr with ⟨v, reason, -, hcourse, -⟩ | ⟨v, -, hcourse, rfl⟩ |
    ⟨o, cancelled, failure, -, hcourse⟩
  · rw [hcourse] at hc
    simp at hc
  · rw [hcourse]
    exact ⟨v, false, rfl, rfl, rfl⟩
  · rw [hcourse] at hc
    simp at hc

/-- A scope returns a value only after its commit has succeeded. -/
theorem Over.committed_of_ok {value : Value} (ho : Over loose mixed a) (hm : ¬ mixed)
    (hr : a.course.returned = some (.ok value)) : a.course.answers = [(.commit, none)] := by
  rcases ho.of_returned hm hr with ⟨v, reason, -, -, he⟩ | ⟨v, -, hcourse, -⟩ |
    ⟨o, cancelled, failure, hrefused, -⟩
  · cases he
  · rw [hcourse]
  · cases o with
    | error e => cases hrefused
    | ok v => rcases hrefused with ⟨-, he⟩ | ⟨-, -, he⟩ <;> cases he

/-! ## Effects of a unit -/

/-- What the marks of a run tell about the effects of a unit's transactions. -/
structure EffectsFollow (u : UnitId) (marks : List (Mark H)) : Prop where
  /-- An effect is put off until the commit of a transaction whose work goes on. -/
  defers : ∀ h effect older, .deferred u h effect :: older <:+ marks →
    (account h older).opener = some u ∧ (account h older).course = {}
  /-- The effects that have started are the first ones that were put off, in the same order, each
      once. -/
  inOrder : ∀ h, (account h marks).opener = some u →
    (account h marks).course.started <+: (account h marks).deferred
  /-- An effect starts when the commit has succeeded: the next one in the order. -/
  starts : ∀ h index effect older, .effectStarted u h index effect :: older <:+ marks →
    (account h older).opener = some u ∧
      (account h older).course.answers = [(.commit, none)] ∧
      (account h older).course.started.length = index ∧
      (account h older).deferred[index]? = some effect
  /-- A scope that returns after a successful commit returns the value of its work, whatever its
      effects came to, and all of them have started. -/
  all : ∀ h r, (account h marks).opener = some u → (account h marks).course.returned = some r →
    (account h marks).course.answers = [(.commit, none)] →
    ∃ value cancelled, (account h marks).course.work = some (some (.ok value, cancelled)) ∧
      r = .ok value ∧ (account h marks).course.started = (account h marks).deferred
  /-- Only such a scope returns a value. -/
  committed : ∀ h value, (account h marks).opener = some u →
    (account h marks).course.returned = some (.ok value) →
    (account h marks).course.answers = [(.commit, none)]

/-- What happens to the programs of the effects of a unit's transactions, up to a state of a run. -/
structure EffectsRun (T : UnitId → Prop) (u : UnitId) (m : Machine H) : Prop where
  /-- For every effect that is told to have started, the run has been through a step in which the
      effect had its turn, and after which its program ran on its unit. -/
  runs : ∀ h index effect, .effectStarted u h index effect ∈ m.world.marks →
    ∃ before, Reached T before ∧ Move T before before.step ∧ Run T before.step m ∧
      before.HasTurn u h index effect ∧ before.step.RunsEffect u h index effect
  /-- As long as an effect has not come to its end, all that were put off have started or are still
      to come, in their order, and it is the last that has started. -/
  left : ∀ h started rest value, .effects u h started rest value ∈ m.items →
    (account h m.world.marks).course.answers = [(.commit, none)] ∧
      (account h m.world.marks).course.started.length = started ∧
      (account h m.world.marks).course.started ++ rest = (account h m.world.marks).deferred

theorem Reached.effectsRun {m : Machine H} (hr : Reached T m) (hu : T u) : EffectsRun T u m := by
  constructor
  case runs =>
    intro h index effect hin
    obtain ⟨older, hs⟩ := exists_suffix_of_mem hin
    obtain ⟨before, after, hbefore, hchange, hrun, -, -, hdone⟩ := hr.exists_done hs
    cases hdone with
    | step he hd =>
      subst he
      exact ⟨before, hbefore, hchange, hrun, hd.1, hd.2⟩
    | background he hb =>
      obtain ⟨_, _, _, -, hnone⟩ := hb
      cases hnone
    | dropped p hp he hc => cases hc
  case left =>
    intro h started rest value hin
    obtain ⟨s, hs⟩ := Multiset.exists_cons_of_mem hin
    have hopener : (m.ledger.account h).opener = some u :=
      hr.keeps.invariant.sound.opener_of_eq_cons hs rfl
    obtain ⟨-, hfits⟩ := (hr.lives hu).fits_of_owns hs (beq_self_eq_true h) hopener
    obtain ⟨done, rfl, hkept, hcourse⟩ := hfits.of_effects
    have hc : (account h m.world.marks).course = _ := hcourse
    rw [hc]
    exact ⟨rfl, rfl, (hkept (hr.orderly hu).unmixed).2⟩

/-- An effect that fails is only reported: the run goes on as after one that ends well. -/
def EffectFailuresPass (H : Host) : Prop :=
  ∀ (w : World H) (layers : List (Layer H)) (held : List Handle) (u : UnitId) (h : Handle)
    (index : Nat) (rest : List (List (Step H))) (value : Value) (e : Failure H.Fault) (v : Value),
    resume w layers (.error e) (.effects held u h index rest value) =
      resume (w.record (.alert (.effectFailed index (e.message H)))) layers (.ok v)
        (.effects held u h index rest value)

/-- A unit has a transaction while the work of an outermost scope goes on. Then whatever a program
    puts off is put off until its commit, and the program goes on. At other times nothing is put
    off: a program that needs the effect fails, others only write that down. -/
def DefersNeedScope (u : UnitId) (m : Machine H) : Prop :=
  (m.world.context? u ≠ none ↔ outers u m.items ≠ 0) ∧
    (∀ c strict value rest effect, m.world.context? u = some c → ∃ w : World H,
      execStep m.world m.layers u value rest (.defer strict effect) =
          ⟨w, m.layers, .exec u value rest⟩ ∧
        w.marks = .deferred u c.handle effect :: m.world.marks) ∧
    ∀ value rest effect, m.world.context? u = none →
      execStep m.world m.layers u value rest (.defer true effect) =
          failWith m.world m.layers .noActiveTransaction ∧
        execStep m.world m.layers u value rest (.defer false effect) =
          ⟨m.world.record (.deferFailed .noActiveTransaction), m.layers, .exec u value rest⟩

/-- In every run that uses a unit in order, its effects follow their commits, each that has started
    is run, and what else is told of them has been done. -/
theorem effects_follow {m : Machine H} (hr : Reached T m) (hu : T u) :
    EffectsFollow u m.world.marks ∧ EffectsRun T u m ∧ EffectFailuresPass H ∧
      DefersNeedScope u m ∧ TellsTrue T m := by
  have htimely := hr.timely
  have horderly := hr.orderly hu
  have hfits := (hr.lives hu).fits
  have hover : ∀ h r, (account h m.world.marks).opener = some u →
      (account h m.world.marks).course.returned = some r →
      Over (¬ T u) (IsMixed u m.world.marks) (account h m.world.marks) := fun h r ho hret =>
    ((hfits h ho).over_of_returned (ne_of_eq_of_ne hret (Option.some_ne_none r))).2
  refine ⟨?_, hr.effectsRun hu, fun _ _ _ _ _ _ _ _ _ _ => rfl, ⟨hr.keeps.working hu, ?_, ?_⟩,
    hr.tellsTrue⟩
  · constructor
    case defers =>
      intro h effect older hs
      obtain ⟨hopener, hcourse⟩ := htimely.at hs
      exact ⟨hopener, hcourse hu⟩
    case inOrder =>
      intro h ho
      exact (hfits h ho).started_first horderly.unmixed
    case starts =>
      intro h index effect older hs
      have holder := (List.suffix_cons _ _).trans hs
      obtain ⟨hopener, hstart⟩ := htimely.at hs
      obtain ⟨hanswers, hindex, hdeferred⟩ := hstart (horderly.regular.of_suffix holder)
      exact ⟨hopener, hanswers, hindex.symm, hdeferred fun hm => horderly.unmixed (hm.mono holder)⟩
    case all =>
      intro h r ho hret hc
      exact (hover h r ho hret).serves_all horderly.unmixed hret hc
    case committed =>
      intro h value ho hret
      exact (hover h _ ho hret).committed_of_ok horderly.unmixed hret
  · intro c strict value rest effect hx
    simp only [execStep, hx]
    exact ⟨m.world.deferEffect u c effect, rfl, rfl⟩
  · intro value rest effect hx
    simp only [execStep, hx]
    exact ⟨rfl, rfl⟩

/-- A run in which a nested scope puts an effect off that fails in the end, and the outermost one
    another. -/
def failingEffect : Machine scriptHost :=
  Machine.settleWithin 60
    ⟨World.fresh (.scripted ⟨"scripted", ⟨0, [], 0⟩, ⟨0, [], 0⟩, ⟨0, [], 0⟩⟩) none (), [],
      .exec 0 .null [.scope .here .lenient
        [.scope .here .lenient [.defer true [.announce (.int 1), .fail "refused"], .give .null],
          .defer true [.announce (.int 2)], .give .null]]⟩

theorem reached_failingEffect : Reached (· ∈ [0]) failingEffect :=
  .settleWithin 60 ⟨_, 0, .null, _, World.fresh_isQuiet _ _ _, .refl⟩ (by decide)

/-- Both effects start, in their order, and write down what they do; the failure of the first is
    reported, and the scope returns its value. -/
theorem effects_follow_failingEffect :
    Reached (· ∈ [0]) failingEffect ∧ 0 ∈ [0] ∧
      failingEffect.world.log = [.call .begin 1, .scope (.ok .null), .call (.finish .commit) 1,
        .effect (.int 1), .alert (.effectFailed 0 "refused"), .effect (.int 2),
        .scope (.ok .null)] ∧
      (account 1 failingEffect.world.marks).course.returned = some (.ok .null) ∧
      (account 1 failingEffect.world.marks).course.started =
        [[.announce (.int 1), .fail "refused"], [.announce (.int 2)]] ∧
      EffectsFollow 0 failingEffect.world.marks ∧ EffectsRun (· ∈ [0]) 0 failingEffect ∧
      EffectFailuresPass scriptHost ∧ DefersNeedScope 0 failingEffect ∧
      TellsTrue (· ∈ [0]) failingEffect :=
  ⟨reached_failingEffect, by decide, rfl, rfl, rfl,
    effects_follow reached_failingEffect (by decide)⟩

end BootEngine.Work
