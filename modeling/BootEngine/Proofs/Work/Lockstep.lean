import BootEngine.Proofs.Work.Changes

/-!
# Runs in lockstep

Two runs that are alike take their steps together: after each step they are alike again, and no step
of the one waits for the source where the other does not. A run is only assumed to ask the source
not more often than there are permits.

Contents:
* `MachineLike`: runs that are alike, since an earlier state.
* `closeScope_like`, `enterScope_like`, `visit_like`: how scopes end and begin, and joins.
* `Alike.abandon`: dropping computations that are alike.
* `execStep_like`, `resume_like`, `enter_like`, `suspend_like`: the single steps.
* `MachineLike.step`: any step.
-/

namespace BootEngine.Work

open Transaction (Terminal Handle Source Context)

variable {H : Host}

/-- Runs that are alike, in worlds to which the same has been done since an earlier state. -/
structure MachineLike (R : Realm H) (n : Nat) (B : Base H) (N : Pairing) (m m' : Machine H) :
    Prop where
  world : Alike R n B N m.world m'.world
  layers : List.Forall₂ (LayerLike R N) m.layers m'.layers
  focus : FocusLike R N m.focus m'.focus

/-- Runs that are alike when more stands for each other than before. -/
def Lockstep (R : Realm H) (n : Nat) (B : Base H) (N : Pairing) (m m' : Machine H) : Prop :=
  ∃ N', N ≤ N' ∧ MachineLike R n B N' m m'

section Steps

variable {R : Realm H} {n : Nat} {B : Base H} {N : Pairing} {w v : World H}
  {layers layers' : List (Layer H)} {u u' : UnitId} {h h' : Handle}

/-- Runs that are alike without anything new. -/
theorem Lockstep.same {m m' : Machine H} (hm : MachineLike R n B N m m') : Lockstep R n B N m m' :=
  ⟨N, N.le_refl, hm⟩

theorem Lockstep.more {N' : Pairing} {m m' : Machine H} (hN : N ≤ N')
    (hm : Lockstep R n B N' m m') : Lockstep R n B N m m' := by
  obtain ⟨N'', hN'', hm⟩ := hm
  exact ⟨N'', Pairing.le_trans hN hN'', hm⟩

/-! ## How scopes end -/

theorem failWith_like (ha : Alike R n B N w v) (hl : List.Forall₂ (LayerLike R N) layers layers')
    (e : TransactionError) : MachineLike R n B N (failWith w layers e) (failWith v layers' e) :=
  ⟨ha, hl, .finish _⟩

theorem returnFrom_like (ha : Alike R n B N w v)
    (hl : List.Forall₂ (LayerLike R N) layers layers') (outcome : Outcome H) :
    MachineLike R n B N (returnFrom w layers u h outcome) (returnFrom v layers' u' h' outcome) :=
  ⟨ha.mark _ _ rfl rfl rfl, hl, .finish outcome⟩

theorem nextEffect_like (ha : Alike R n B N w v)
    (hl : List.Forall₂ (LayerLike R N) layers layers') (hu : (u, u') ∈ N.units)
    (held held' : List Handle) (index : Nat) {effects : List (List (Step H))}
    (heffects : ∀ effect ∈ effects, Step.KeepsToAll R True effect) (value : Value) :
    MachineLike R n B N (nextEffect w layers held u h index effects value)
      (nextEffect v layers' held' u' h' index effects value) := by
  cases effects with
  | nil => exact returnFrom_like (ha.letGo held held') hl _
  | cons effect rest =>
    refine ⟨ha.mark _ _ rfl rfl rfl, .cons (.frame ?_) hl, ?_⟩
    · exact .effects held held' h h' index value hu fun e he =>
        heffects e (List.mem_cons_of_mem _ he)
    · exact .exec .null (.own hu (heffects effect (List.mem_cons_self ..)))

/-- Calls that are alike. What the callers let go of at the end may be anything. -/
inductive ClosingLike (R : Realm H) (N : Pairing) : Closing H → Closing H → Prop
  | commit {u u' : UnitId} {h h' : Handle} {effects : List (List (Step H))}
      (held held' : List Handle) (hu : (u, u') ∈ N.units) (hh : (h, h') ∈ N.handles)
      (heffects : ∀ effect ∈ effects, Step.KeepsToAll R True effect) (value : Value) :
      ClosingLike R N (.commit held u h effects value) (.commit held' u' h' effects value)
  | rollback {h h' : Handle} (held held' : List Handle) (u u' : UnitId)
      (hh : (h, h') ∈ N.handles) (outcome : Outcome H) :
      ClosingLike R N (.rollback held u h outcome) (.rollback held' u' h' outcome)
  | direct {u u' : UnitId} {h h' : Handle} {rest : List (Step H)} (terminal : Terminal)
      (hh : (h, h') ∈ N.handles) (value : Value) (hrest : Tied R N u u' rest) :
      ClosingLike R N (.direct u terminal h value rest) (.direct u' terminal h' value rest)

theorem ClosingLike.terminal {call call' : Closing H} (hc : ClosingLike R N call call') :
    call.terminal = call'.terminal := by
  cases hc <;> rfl

theorem ClosingLike.handle {call call' : Closing H} (hc : ClosingLike R N call call') :
    (call.handle, call'.handle) ∈ N.handles := by
  cases hc with
  | commit held held' hu hh heffects value => exact hh
  | rollback held held' u u' hh outcome => exact hh
  | direct terminal hh value hrest => exact hh

theorem settle_like (ha : Alike R n B N w v) (hl : List.Forall₂ (LayerLike R N) layers layers')
    {call call' : Closing H} (hc : ClosingLike R N call call') :
    MachineLike R n B N (settle w layers none call) (settle v layers' none call') := by
  cases hc with
  | commit held held' hu hh heffects value =>
    exact nextEffect_like (ha.mark _ _ rfl rfl rfl) hl hu held held' 0 heffects value
  | rollback held held' u u' hh outcome =>
    exact returnFrom_like ((ha.mark _ _ rfl rfl rfl).letGo held held') hl outcome
  | direct terminal hh value hrest =>
    exact ⟨(ha.mark _ _ rfl rfl rfl).note (.finished terminal none) rfl, hl, .exec value hrest⟩

/-- A call that ends a transaction is answered at once. -/
theorem startClosing_like (ha : Alike R n B N w v)
    (hl : List.Forall₂ (LayerLike R N) layers layers') {call call' : Closing H}
    (hc : ClosingLike R N call call') :
    MachineLike R n B N (startClosing w layers call) (startClosing v layers' call') := by
  obtain ⟨hleft, hright, hstarted⟩ := ha.startFinish call.terminal hc.handle
  unfold startClosing
  rw [← hc.terminal]
  dsimp only
  rw [hleft, hright, if_pos rfl, if_pos rfl]
  exact settle_like hstarted hl hc

theorem closeScope_like (ha : Alike R n B N w v)
    (hl : List.Forall₂ (LayerLike R N) layers layers') (hu : (u, u') ∈ N.units)
    (hh : (h, h') ∈ N.handles) (outcome : Outcome H) :
    MachineLike R n B N (closeScope w layers u h outcome) (closeScope v layers' u' h' outcome) := by
  have hfound := ha.context? hu
  have hcancelled := ha.isCancelled hu
  have hended := ha.endWork hu h h' outcome
  unfold closeScope
  revert hfound
  cases w.context? u <;> cases v.context? u' <;> intro hfound
  case none.none => exact returnFrom_like ((ha.mark _ _ rfl rfl rfl).letGo [h] [h']) hl _
  case some.some c c' =>
    cases hfound with
    | some hc =>
      dsimp only
      rw [← hcancelled, ← hc.rolledBack, ← hc.effects]
      cases outcome with
      | error e => exact startClosing_like hended hl (.rollback _ _ _ _ hh _)
      | ok value =>
        dsimp only
        split
        · exact startClosing_like hended hl (.rollback _ _ _ _ hh _)
        · split
          · exact startClosing_like (hended.note (.alert .nestedScopeFailed) rfl) hl
              (.rollback _ _ _ _ hh _)
          · exact startClosing_like hended hl (.commit _ _ hu hh hc.kept value)
  all_goals cases hfound

/-! ## How scopes begin -/

theorem openScope_like (ha : Alike R n B N (w.openContext u h) (v.openContext u' h'))
    (hl : List.Forall₂ (LayerLike R N) layers layers') (hu : (u, u') ∈ N.units)
    (hh : (h, h') ∈ N.handles) {body : List (Step H)} (hbody : Step.KeepsToAll R True body) :
    MachineLike R n B N (openScope w layers u h body) (openScope v layers' u' h' body) :=
  ⟨ha, .cons (.frame (.outer hu hh)) hl, .exec .null (.own hu hbody)⟩

theorem requests_mark {m : Mark H} (hm : (Entry.mark m).isRequest = false) :
    (w.mark m).requests = w.requests := requests_record hm

theorem requests_request (w : World H) (u : UnitId) :
    (w.request u).2.requests = w.requests + 1 := by
  show ((w.mark (.requested u)).recordCall .begin).requests = _
  unfold World.recordCall
  split
  · exact (requests_record rfl).trans (requests_ask w u)
  · exact requests_ask w u

theorem requests_openContext (w : World H) : (w.openContext u h).requests = w.requests := by
  unfold World.openContext
  dsimp only
  split
  · exact requests_mark rfl
  · exact (requests_mark rfl).trans (requests_mark rfl)

theorem requests_tryAcquire (w : World H) (body : List (Step H)) (limit : Option (Nat × Nat))
    (wait : Acquiring) : (tryAcquire w layers u body limit wait).world.requests = w.requests := by
  have hwithdraw : (wait.withdraw w).requests = w.requests := by cases wait <;> rfl
  unfold tryAcquire
  split
  · cases wait with
    | ticket number => exact requests_openContext _
    | answer due reply =>
      cases reply with
      | ok handle => exact requests_openContext w
      | error reason => exact requests_mark rfl
  · split
    · split
      · exact (requests_mark rfl).trans hwithdraw
      · rfl
    · rfl

/-- An outermost scope asks for its transaction once. -/
theorem requests_beginOutermost (w : World H) (layers : List (Layer H)) (u : UnitId)
    (body : List (Step H)) :
    (beginOutermost w layers u body).world.requests = w.requests + 1 := by
  unfold beginOutermost
  dsimp only
  rw [← requests_request w u]
  split
  · exact requests_openContext _
  · exact requests_tryAcquire ..
  · exact requests_tryAcquire ..

/-- A scope begins; an outermost one asks for its transaction and has it at once. -/
theorem enterScope_like (ha : Alike R n B N w v)
    (hl : List.Forall₂ (LayerLike R N) layers layers') (hu : (u, u') ∈ N.units)
    {body : List (Step H)} (hbody : Step.KeepsToAll R True body)
    (hroom : (enterScope w layers u body).world.requests ≤ n) :
    Lockstep R n B N (enterScope w layers u body) (enterScope v layers' u' body) := by
  have hcancelled := ha.isCancelled hu
  have hfound := ha.context? hu
  revert hroom
  unfold enterScope
  rw [← hcancelled]
  split
  · intro _
    exact .same (failWith_like (ha.mark _ _ rfl rfl rfl) hl .cancelled)
  revert hfound
  cases hleft : w.context? u <;> cases hright : v.context? u' <;> intro hfound
  case none.none =>
    dsimp only
    intro hroom
    rw [requests_beginOutermost] at hroom
    obtain ⟨hbegun, hbegun', N', hN, hh, hopen⟩ := ha.openContext hroom hu hleft hright
    refine ⟨N', hN, ?_⟩
    unfold beginOutermost
    dsimp only
    rw [hbegun, hbegun']
    exact openScope_like hopen (layersLike_mono hN hl) (hN.1 hu) hh hbody
  case some.some c c' =>
    intro _
    cases hfound with
    | some hc =>
      refine .same ⟨ha.enterNested hu hc, .cons (.frame (.nested hu hc.handle)) hl, ?_⟩
      exact .exec .null (.own hu hbody)
  all_goals cases hfound

/-! ## Joins -/

/-- All branches of a join have been looked at. -/
theorem visit_nil (w : World H) (layers : List (Layer H)) (u : UnitId)
    (done : List (Branch H (Paused H))) :
    visit w layers u done [] =
      if done.all Branch.hasEnded then ⟨w, layers, .finish (.ok .null)⟩
      else ⟨w, layers, .pause (.branches u done.reverse)⟩ := by
  have hsame : ∀ f : Branch H (Paused H) → Bool, (∀ b, f b = b.hasEnded) →
      done.all f = done.all Branch.hasEnded := fun f hf => by rw [funext hf]
  unfold visit
  rw [hsame _ fun b => by cases b <;> rfl]

/-- The next unfinished branch is looked at on either side. -/
theorem visit_like (ha : Alike R n B N w v) (hl : List.Forall₂ (LayerLike R N) layers layers')
    {done done' todo todo' : List (Branch H (Paused H))} (hdone : BranchesLike R N u u' done done')
    (htodo : BranchesLike R N u u' todo todo') :
    MachineLike R n B N (visit w layers u done todo) (visit v layers' u' done' todo') := by
  match htodo with
  | .nil _ _ =>
    rw [visit_nil, visit_nil, ← hdone.all_finished]
    split
    · exact ⟨ha, hl, .finish _⟩
    · next hopen =>
      refine ⟨ha, hl, .pause (.branches ?_ hdone.reverse)⟩
      rw [List.all_reverse]
      exact Bool.eq_false_of_not_eq_true hopen
  | .idle h hrest => exact ⟨ha, .cons (.joining hdone hrest) hl, .exec .null h⟩
  | .paused hp hrest => exact ⟨ha, .cons (.joining hdone hrest) hl, .enter hp⟩
  | .finished hrest =>
    have hnext := visit_like ha hl (BranchesLike.finished hdone) hrest
    exact hnext

/-! ## Dropping -/

theorem Alike.unwind (ha : Alike R n B N w v) {f f' : Frame H} (hf : FrameLike R N f f') :
    Alike R n B N (f.unwind w) (f'.unwind v) := by
  cases hf with
  | after how value h => exact ha
  | nested hu hh => exact ha.leaveNested hu _ _ none
  | outer hu hh => exact (ha.interrupt hu).letGo _ _
  | effects held held' h h' index value hu hrest => exact ha.letGo held held'
  | timeout due value h => exact ha
  | catchPanic value h => exact ha

mutual

/-- Computations that are alike are dropped. -/
theorem Alike.abandon {w v : World H} (ha : Alike R n B N w v) {p p' : Paused H}
    (hp : PausedLike R N p p') : Alike R n B N (p.abandon w) (p'.abandon v) := by
  match hp with
  | .sleeping due => exact ha
  | .yielded => exact ha
  | .under hf hp => exact (ha.abandon hp).unwind hf
  | .branches _ h => exact ha.abandonAll h

theorem Alike.abandonAll {w v : World H} (ha : Alike R n B N w v) {x x' : UnitId}
    {items items' : List (Branch H (Paused H))} (h : BranchesLike R N x x' items items') :
    Alike R n B N (Paused.abandonAll items w) (Paused.abandonAll items' v) := by
  match h with
  | .nil _ _ => exact ha
  | .idle _ hrest =>
    have hdropped := ha.abandonAll hrest
    exact hdropped
  | .paused hp hrest => exact (ha.abandon hp).abandonAll hrest
  | .finished hrest =>
    have hdropped := ha.abandonAll hrest
    exact hdropped

end

/-! ## Steps of programs -/

theorem describe_like {c c' : Context (List (Step H))} (hc : ContextLike R N c c') :
    c.describe = c'.describe := by
  unfold Context.describe
  rw [hc.depth, hc.effects, hc.rolledBack]

/-- A probe finds the same, apart from the numbers of transactions. -/
theorem probe_like (ha : Alike R n B N w v) {what : Probe}
    (hwhat : what = .source ∨ (u, u') ∈ N.units) :
    (probe w u what).unnumbered? = (probe v u' what).unnumbered? := by
  obtain rfl | hu := hwhat
  · rfl
  have hfound := ha.context? hu
  have horigin : w.source.origin = v.source.origin := by
    obtain ⟨⟨p, hp, -⟩, ⟨q, hq, -⟩⟩ := ha.agree.spare
    rw [hp, hq]
    rfl
  cases what with
  | token => exact congrArg (fun b => some (Entry.token b)) (ha.isCancelled hu)
  | source => rfl
  | _ =>
    unfold probe
    revert hfound
    cases w.context? u <;> cases v.context? u' <;> intro hfound
    case none.none => rfl
    case some.some c c' =>
      cases hfound with
      | some hc => simp [Entry.unnumbered?, hc.depth, hc.rolledBack, horigin, describe_like hc]
    all_goals cases hfound

theorem probe_quiet (w : World H) (u : UnitId) (what : Probe) :
    (probe w u what).isRequest = false ∧ (probe w u what).opened? = none := by
  cases what with
  | state =>
    unfold probe
    cases w.context? u <;> exact ⟨rfl, rfl⟩
  | _ => exact ⟨rfl, rfl⟩

/-- A scope begins on a fresh unit. -/
theorem enterFresh_like (ha : Alike R n B N w v)
    (hl : List.Forall₂ (LayerLike R N) layers layers') {body : List (Step H)}
    (hbody : Step.KeepsToAll R True body)
    (hroom : (enterScope w.addUnit.2 layers w.addUnit.1 body).world.requests ≤ n) :
    Lockstep R n B N (enterScope w.addUnit.2 layers w.addUnit.1 body)
      (enterScope v.addUnit.2 layers' v.addUnit.1 body) := by
  have hle := N.le_addUnit w.units.length v.units.length
  have hu : (w.units.length, v.units.length) ∈ (N.addUnit w.units.length v.units.length).units :=
    List.mem_append_right _ (List.mem_singleton_self _)
  exact (enterScope_like ha.addUnit (layersLike_mono hle hl) hu hbody hroom).more hle

/-- Any step of a program. -/
theorem execStep_like (hR : R.IsClosed) (ha : Alike R n B N w v)
    (hl : List.Forall₂ (LayerLike R N) layers layers') {own : Prop}
    (hown : own → (u, u') ∈ N.units) (value : Value) {rest : List (Step H)}
    (hrest : Step.KeepsToAll R own rest) (s : Step H) (hs : s.KeepsTo R own)
    (hroom : (execStep w layers u value rest s).world.requests ≤ n) :
    Lockstep R n B N (execStep w layers u value rest s) (execStep v layers' u' value rest s) := by
  have htied : Tied R N u u' rest := ⟨own, hown, hrest⟩
  have hafter : ∀ how, List.Forall₂ (LayerLike R N) (.frame (.after u how value rest) :: layers)
      (.frame (.after u' how value rest) :: layers') := fun how =>
    .cons (.frame (.after how value htied)) hl
  match s with
  | .perform action =>
    obtain ⟨hanswer, hacted⟩ := ha.perform hR hs
    simp only [execStep]
    rw [← hanswer]
    cases (H.perform action w.host).1 with
    | ok answer => exact .same ⟨hacted, hl, .exec _ htied⟩
    | error fault => exact .same ⟨hacted, hl, .finish _⟩
  | .note e => exact .same ⟨ha.note (.note e) rfl, hl, .exec value htied⟩
  | .announce id => exact .same ⟨ha.note (.effect id) rfl, hl, .exec value htied⟩
  | .probe what =>
    refine .same ⟨ha.record (probe_like ha (hs.imp_right hown)) ?_ ?_ ?_, hl, .exec value htied⟩
    · exact (probe_quiet w u what).1
    · exact (probe_quiet v u' what).1
    · exact (probe_quiet w u what).2
  | .give e => exact .same ⟨ha, hl, .finish _⟩
  | .fail fault => exact .same ⟨ha, hl, .finish _⟩
  | .panic => exact .same ⟨ha, hl, .unwind⟩
  | .sleep ms =>
    show Lockstep R n B N (if ms = 0 then _ else _) (if ms = 0 then _ else _)
    rw [← ha.now]
    split
    · exact .same ⟨ha, hl, .exec value htied⟩
    · exact .same ⟨ha, hafter .passing, .pause (.sleeping _)⟩
  | .yield => exact .same ⟨ha, hafter .passing, .pause .yielded⟩
  | .cancel none => exact .same ⟨ha.cancel (hown hs), hl, .exec value htied⟩
  | .cancel (some name) =>
    obtain ⟨N', hN, hfound, hu⟩ := ha.named hs
    exact ⟨N', hN, hfound.cancel hu, layersLike_mono hN hl, .exec value (htied.mono hN)⟩
  | .armCommitFailure => exact hs.elim
  | .finish terminal =>
    have hfound := ha.context? (hown hs)
    simp only [execStep]
    revert hfound
    cases w.context? u <;> cases v.context? u' <;> intro hfound
    case none.none => exact .same (failWith_like ha hl _)
    case some.some c c' =>
      cases hfound with
      | some hc =>
        exact .same (startClosing_like (ha.mark _ _ rfl rfl rfl) hl
          (.direct terminal hc.handle value htied))
    all_goals cases hfound
  | .scope .here how body =>
    exact enterScope_like ha (hafter how) (hown hs.1) hs.2.freely hroom
  | .scope .fresh how body => exact enterFresh_like ha (hafter how) hs hroom
  | .within .here body =>
    exact enterScope_like ha hl (hown hs.1) hs.2.freely hroom
  | .within .fresh body => exact enterFresh_like ha hl hs hroom
  | .timeout ms body =>
    have hlimit : List.Forall₂ (LayerLike R N)
        (.frame (.timeout u (w.now + ms) value rest) :: layers)
        (.frame (.timeout u' (v.now + ms) value rest) :: layers') := by
      rw [← ha.now]
      exact .cons (.frame (.timeout _ value htied)) hl
    exact enterScope_like ha hlimit (hown hs.1) hs.2.freely hroom
  | .catchPanic body =>
    exact enterScope_like ha (.cons (.frame (.catchPanic value htied)) hl) (hown hs.1)
      hs.2.freely hroom
  | .defer strict effect =>
    have hfound := ha.context? (hown hs.1)
    have hkept : Step.KeepsToAll R True effect := hs.2.freely
    simp only [execStep]
    revert hfound
    cases w.context? u <;> cases v.context? u' <;> intro hfound
    case none.none =>
      dsimp only
      split
      · exact .same (failWith_like ha hl _)
      · exact .same ⟨ha.note (.deferFailed .noActiveTransaction) rfl, hl, .exec value htied⟩
    case some.some c c' =>
      cases hfound with
      | some hc => exact .same ⟨ha.deferEffect (hown hs.1) hc hkept, hl, .exec value htied⟩
    all_goals cases hfound
  | .onUnit name body =>
    obtain ⟨N', hN, hfound, hu⟩ := ha.named hs.1
    exact ⟨N', hN, hfound, layersLike_mono hN (hafter (.unit name)), .exec .null (.own hu hs.2)⟩
  | .iterate 0 body => exact .same ⟨ha, hl, .exec value htied⟩
  | .iterate (count + 1) body =>
    refine .same ⟨ha, .cons (.frame (.after .passing value ?_)) hl, .exec .null ⟨own, hown, hs⟩⟩
    exact ⟨own, hown, hs, hrest⟩
  | .join branches =>
    refine .same (visit_like ha (hafter .passing) (.nil u u') (.idles fun branch hb => ?_))
    exact ⟨own, hown, Step.KeepsToBranches.of_mem hs hb⟩

/-! ## Going on -/

/-- Goes on after an inner computation. -/
theorem resume_like (ha : Alike R n B N w v) (hl : List.Forall₂ (LayerLike R N) layers layers')
    (outcome : Outcome H) {f f' : Frame H} (hf : FrameLike R N f f') :
    MachineLike R n B N (resume w layers outcome f) (resume v layers' outcome f') := by
  cases hf with
  | after how value h =>
    have hgoes : ∀ e, e.mark? = none → MachineLike R n B N
        ⟨w.record e, layers, .exec _ value _⟩ ⟨v.record e, layers', .exec _ value _⟩ := fun e he =>
      ⟨ha.note e he, hl, .exec value h⟩
    cases how with
    | passing =>
      cases outcome with
      | ok _ => exact ⟨ha, hl, .exec value h⟩
      | error e => exact ⟨ha, hl, .finish _⟩
    | strict =>
      cases outcome with
      | ok _ => exact hgoes _ rfl
      | error e => exact ⟨ha, hl, .finish _⟩
    | lenient => exact hgoes _ rfl
    | coordinator => exact hgoes _ rfl
    | unit name => exact hgoes _ rfl
  | @nested u u' h h' hu hh =>
    have houtcome : nestedOutcome w u outcome = nestedOutcome v u' outcome := by
      unfold nestedOutcome
      rw [ha.isCancelled hu]
    have hleft := ha.leaveNested hu h h' (some (nestedOutcome w u outcome))
    show MachineLike R n B N ⟨w.leaveNested u h _, layers, .finish _⟩
      ⟨v.leaveNested u' h' _, layers', .finish _⟩
    rw [← houtcome]
    exact ⟨hleft, hl, .finish _⟩
  | outer hu hh => exact closeScope_like ha hl hu hh outcome
  | effects held held' h h' index value hu hrest =>
    cases outcome with
    | ok _ => exact nextEffect_like ha hl hu held held' (index + 1) hrest value
    | error e =>
      exact nextEffect_like (ha.note (.alert (.effectFailed index (e.message H))) rfl) hl hu held
        held' (index + 1) hrest value
  | timeout due value h => exact ⟨ha.note (.timeout (some outcome)) rfl, hl, .exec value h⟩
  | catchPanic value h => exact ⟨ha.note (.catchPanic (some outcome)) rfl, hl, .exec value h⟩

theorem cutsOff_like (ha : Alike R n B N w v) {f f' : Frame H} (hf : FrameLike R N f f') :
    f.cutsOff w = f'.cutsOff v := by
  cases hf with
  | nested hu hh => exact ha.isCancelled hu
  | outer hu hh => exact ha.isCancelled hu
  | _ => rfl

/-- A suspended computation is looked at again. -/
theorem enter_like (ha : Alike R n B N w v) (hl : List.Forall₂ (LayerLike R N) layers layers')
    {p p' : Paused H} (hp : PausedLike R N p p') :
    MachineLike R n B N (enter w layers p) (enter v layers' p') := by
  cases hp with
  | sleeping due =>
    show MachineLike R n B N (if due ≤ w.now then _ else _) (if due ≤ v.now then _ else _)
    rw [← ha.now]
    split
    · exact ⟨ha, hl, .finish _⟩
    · exact ⟨ha, hl, .pause (.sleeping due)⟩
  | yielded => exact ⟨ha, hl, .finish _⟩
  | @under f f' p p' hf hp =>
    show MachineLike R n B N (if f.cutsOff w then _ else _) (if f'.cutsOff v then _ else _)
    rw [← cutsOff_like ha hf]
    split
    · exact failWith_like (ha.abandon hp) (.cons (.frame hf) hl) _
    · exact ⟨ha, .cons (.frame hf) hl, .enter hp⟩
  | branches hopen h => exact visit_like ha hl (.nil _ _) h

/-- A computation is suspended inside a frame. -/
theorem suspend_like (ha : Alike R n B N w v) (hl : List.Forall₂ (LayerLike R N) layers layers')
    {p p' : Paused H} (hp : PausedLike R N p p') {f f' : Frame H} (hf : FrameLike R N f f') :
    MachineLike R n B N (suspend w layers p f) (suspend v layers' p' f') := by
  cases hf with
  | timeout due value h =>
    show MachineLike R n B N (if due ≤ w.now then _ else _) (if due ≤ v.now then _ else _)
    rw [← ha.now]
    split
    · refine ⟨(ha.abandon hp).note (.timeout none) rfl, hl, .exec value ?_⟩
      obtain ⟨own, hown, hkeeps⟩ := h
      exact ⟨own, hown, trivial, hkeeps⟩
    · exact ⟨ha, hl, .pause (.under (.timeout due value h) hp)⟩
  | after how value h => exact ⟨ha, hl, .pause (.under (.after how value h) hp)⟩
  | nested hu hh => exact ⟨ha, hl, .pause (.under (.nested hu hh) hp)⟩
  | outer hu hh => exact ⟨ha, hl, .pause (.under (.outer hu hh) hp)⟩
  | effects held held' h h' index value hu hrest =>
    exact ⟨ha, hl, .pause (.under (.effects held held' h h' index value hu hrest) hp)⟩
  | catchPanic value h => exact ⟨ha, hl, .pause (.under (.catchPanic value h) hp)⟩

/-- A panic reaches a frame. -/
theorem panicThrough_like (ha : Alike R n B N w v)
    (hl : List.Forall₂ (LayerLike R N) layers layers') {f f' : Frame H}
    (hf : FrameLike R N f f') :
    MachineLike R n B N (panicThrough w layers f) (panicThrough v layers' f') := by
  have hunwound := ha.unwind hf
  cases hf with
  | catchPanic value h =>
    obtain ⟨own, hown, hkeeps⟩ := h
    exact ⟨ha.note (.catchPanic none) rfl, hl, .exec value ⟨own, hown, trivial, hkeeps⟩⟩
  | after how value h => exact ⟨hunwound, hl, .unwind⟩
  | nested hu hh => exact ⟨hunwound, hl, .unwind⟩
  | outer hu hh => exact ⟨hunwound, hl, .unwind⟩
  | effects held held' h h' index value hu hrest => exact ⟨hunwound, hl, .unwind⟩
  | timeout due value h => exact ⟨hunwound, hl, .unwind⟩

end Steps

/-! ## The machine -/

section Machine

variable {R : Realm H} {n : Nat} {B : Base H} {N : Pairing} {m m' : Machine H}

/-- Runs that are alike come to rest together. -/
theorem MachineLike.isAtRest (h : MachineLike R n B N m m') : m.isAtRest = m'.isAtRest := by
  obtain ⟨w, layers, focus⟩ := m
  obtain ⟨w', layers', focus'⟩ := m'
  obtain ⟨-, hl, hfocus⟩ := h
  cases hl with
  | nil => cases hfocus <;> rfl
  | cons _ _ => cases hfocus <;> rfl

/-- Runs that are alike are alike after a step, which does not ask the source for more than it
    has. -/
theorem MachineLike.step (hR : R.IsClosed) (h : MachineLike R n B N m m')
    (hroom : m.step.world.requests ≤ n) : Lockstep R n B N m.step m'.step := by
  obtain ⟨w, layers, focus⟩ := m
  obtain ⟨w', layers', focus'⟩ := m'
  obtain ⟨ha, hl, hfocus⟩ := h
  cases hfocus with
  | enter hp => exact .same (enter_like ha hl hp)
  | @exec u u' steps value htied =>
    obtain ⟨own, hown, hkeeps⟩ := htied
    cases steps with
    | nil => exact .same ⟨ha, hl, .finish _⟩
    | cons s rest => exact execStep_like hR ha hl hown value hkeeps.2 s hkeeps.1 hroom
  | finish outcome =>
    cases hl with
    | nil => exact .same ⟨ha, .nil, .finish outcome⟩
    | cons hlayer hl =>
      cases hlayer with
      | frame hf => exact .same (resume_like ha hl outcome hf)
      | @joining u u' done done' todo todo' hdone htodo =>
        have hrecorded : Alike R n B N (w.record (.branch done.length outcome))
            (w'.record (.branch done'.length outcome)) := by
          rw [← hdone.length_eq]
          exact ha.note (.branch done.length outcome) rfl
        exact .same (visit_like hrecorded hl (.finished hdone) htodo)
  | unwind =>
    cases hl with
    | nil => exact .same ⟨ha, .nil, .unwind⟩
    | cons hlayer hl =>
      cases hlayer with
      | frame hf => exact .same (panicThrough_like ha hl hf)
      | joining hdone htodo =>
        exact .same ⟨ha.abandonAll (hdone.reverse.append htodo), hl, .unwind⟩
  | pause hp =>
    cases hl with
    | nil => exact .same ⟨ha, .nil, .pause hp⟩
    | cons hlayer hl =>
      cases hlayer with
      | frame hf => exact .same (suspend_like ha hl hp hf)
      | joining hdone htodo => exact .same (visit_like ha hl (.paused hp hdone) htodo)

end Machine

end BootEngine.Work
