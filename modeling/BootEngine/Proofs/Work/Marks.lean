import BootEngine.Proofs.Work.Deeds
import BootEngine.Proofs.Work.Runs

/-!
# What marks stand for

The marks in a journal are only told; what they tell has to be done by the step that writes them. A
step that tells of a request has asked the source, and goes on with its answer; one that tells of a
call has made it, and waits if the answer takes time; one that tells of an answer has had it; one
that tells of an effect runs the program of the effect next; and one that tells of the end of a
scope ends with the outcome that is told.

Contents:
* `Machine.Drops`, `Machine.Begins`, `Machine.Asks`, `Machine.Calls`, `Machine.HasAnswer`,
  `Machine.HasTurn`, `Machine.RunsEffect`: what a step does.
* `Mark.IsDone`: what the step that writes a mark has done.
* `Writes`, `IsBacked`: the marks that are written from a world on; all of them are done.
* `returnFrom_backed`, `startClosing_backed`, `enterScope_backed` and the like: the functions of the
  machine.
* `Mark.isCut`, `Paused.abandon_cuts`: dropping tells only of what it drops.
* `Machine.step_backed`: every step has done what it tells.
* `Mark.IsSeenTo`, `runBackground_backed`: and so has the background.
* `Reached.exists_done`: a run has been through the change that wrote a mark, and this change did
  it.
* `TellsTrue`, `Reached.tellsTrue`: so what a run tells is true, and it calls its source for nothing
  that it does not tell.
-/

namespace BootEngine.Work

open Transaction (Terminal Handle Source Context)

variable {H : Host}

/-! ## What steps do -/

/-- The work of the scope that a step opens. -/
def Step.work? : Step H → Option (List (Step H))
  | .scope _ _ body => some body
  | .within _ body => some body
  | .timeout _ body => some body
  | .catchPanic body => some body
  | _ => none

namespace Machine

/-- The next step drops something that is suspended, or lets a panic through: work is cut off, a
    time limit is over, or a panic is on its way. -/
def Drops (m : Machine H) : Prop :=
  (∃ frame inner, m.focus = .enter (.under frame inner) ∧ frame.cutsOff m.world = true) ∨
    (∃ p u due value rest layers, m.focus = .pause p ∧
      m.layers = .frame (.timeout u due value rest) :: layers ∧ due ≤ m.world.now) ∨
    m.focus = .unwind

/-- The next step is about a scope of a unit that is to begin: a program opens it for some work, or
    it waits for a transaction. -/
def Begins (u : UnitId) (body : List (Step H)) (m : Machine H) : Prop :=
  (∃ v value s rest, m.focus = .exec v value (s :: rest) ∧ s.opensOn? m.world v = some u ∧
      s.work? = some body) ∨
    ∃ limit wait, m.focus = .enter (.acquiring u body limit wait)

/-- An outermost scope of a unit asks the source for a transaction, and goes on with what the source
    answers: it opens, or gets in line, or waits for what it has been promised. -/
def Asks (u : UnitId) (m m' : Machine H) : Prop :=
  ∃ (w : World H) (layers : List (Layer H)) (body : List (Step H)) (limit : Option (Nat × Nat)),
    m.Begins u body ∧ w.source = m.world.source.begin.2 ∧ w.now = m.world.now ∧
      m' = match m.world.source.begin.1 with
        | .opened h => openScope w layers u h body
        | .queued number => tryAcquire w layers u body limit (.ticket number)
        | .answering delay reply =>
          tryAcquire w layers u body limit (.answer (m.world.now + delay) reply)

/-- A call that ends a transaction is made at the source; nothing else happens to the source but
    that some let go of their transactions. If the answer takes time, then the run waits for it. -/
def Calls (t : Terminal) (h : Handle) (m m' : Machine H) : Prop :=
  let called := m.world.source.finish t h
  (∃ held : List Handle, m'.world.source = held.foldl (fun s h => s.letGo h) called.2) ∧
    (called.1.delay ≠ 0 → ∃ call, call.terminal = t ∧ call.handle = h ∧
      m'.focus = .pause (.closing (m.world.now + called.1.delay) called.1.failure call))

/-- A call that ends a transaction has its answer: the source gives it at once, or the run has
    waited for it long enough. -/
def HasAnswer (t : Terminal) (h : Handle) (failure : Option String) (m : Machine H) : Prop :=
  (m.world.source.finish t h).1 = ⟨0, failure⟩ ∨
    ∃ due call, m.focus = .enter (.closing due failure call) ∧ due ≤ m.world.now ∧
      call.terminal = t ∧ call.handle = h

/-- The program of an effect is about to run on its unit, in front of the effects that are still to
    come. -/
def RunsEffect (u : UnitId) (h : Handle) (index : Nat) (effect : List (Step H)) (m : Machine H) :
    Prop :=
  m.focus = .exec u .null effect ∧
    ∃ held rest value layers, m.layers = .frame (.effects held u h index rest value) :: layers

/-- An effect has its turn: the commit of its transaction has succeeded, or the program of the
    effect in front of it has ended, in whatever way. -/
def HasTurn (u : UnitId) (h : Handle) (index : Nat) (effect : List (Step H)) (m : Machine H) :
    Prop :=
  (index = 0 ∧ m.HasAnswer .commit h none) ∨
    ∃ before outcome held rest value layers, index = before + 1 ∧ m.focus = .finish outcome ∧
      m.layers = .frame (.effects held u h before (effect :: rest) value) :: layers

end Machine

/-- What the step that writes a mark has done. -/
def Mark.IsDone (m m' : Machine H) : Mark H → Prop
  | .cancelled u => m'.world.isCancelled u = true
  | .refused u =>
    m'.world.isCancelled u = true ∧ m'.focus = .finish (.error (.transaction .cancelled))
  | .requested u => Machine.Asks u m m'
  | .unserved _ e => m'.focus = .finish (.error (.transaction e))
  | .withdrawn _ => m.Drops
  | .opened u h => m'.world.context? u = some (.start h) ∧
    (∃ body, m.Begins u body ∧ m'.focus = .exec u .null body) ∧
    ∃ layers, m'.layers = .frame (.outer u h) :: layers
  | .replaced u h => ∃ c, m.world.context? u = some c ∧ c.handle = h
  | .nestedBegun u h => (∃ c, m.world.context? u = some c ∧ c.handle = h ∧
      m'.world.context? u = some c.enter) ∧
    (∃ body, m.Begins u body ∧ m'.focus = .exec u .null body) ∧
    ∃ layers, m'.layers = .frame (.nested u h) :: layers
  | .nestedEnded u h (some outcome) =>
    m.layers = .frame (.nested u h) :: m'.layers ∧ m'.focus = .finish outcome
  | .nestedEnded _ _ none => m.Drops
  | .deferred u h effect => ∃ c, m.world.context? u = some c ∧ c.handle = h ∧
    m'.world.context? u = some (c.defer effect)
  | .workEnded u h outcome stopped => m.focus = .finish outcome ∧
    (∃ layers, m.layers = .frame (.outer u h) :: layers) ∧ stopped = m.world.isCancelled u
  | .strayed u h => (∃ outcome, m.focus = .finish outcome) ∧
    (∃ layers, m.layers = .frame (.outer u h) :: layers) ∧ m.world.context? u = none
  | .interrupted _ _ => m.Drops
  | .lost _ => m.Drops
  | .direct u h => (∃ value t rest, m.focus = .exec u value (.finish t :: rest)) ∧
    ∃ c, m.world.context? u = some c ∧ c.handle = h
  | .ending t h => Machine.Calls t h m m'
  | .ended t h failure => m.HasAnswer t h failure
  | .callDropped _ => m.Drops
  | .effectStarted u h index effect =>
    m.HasTurn u h index effect ∧ m'.RunsEffect u h index effect
  | .returned _ _ outcome => m'.focus = .finish outcome ∧ m'.layers <:+ m.layers

/-- From one world to another only marks with a property are written. -/
def Writes (P : Mark H → Prop) (w w' : World H) : Prop :=
  ∃ ms, w'.marks = ms ++ w.marks ∧ ∀ mark ∈ ms, P mark

/-- What is told from a world in the middle of a step on to its end is done by that step. -/
abbrev IsBacked (m : Machine H) (w : World H) (m' : Machine H) : Prop :=
  Writes (Mark.IsDone m m') w m'.world

/-- In the middle of a step, the source, the clock and the contexts are still as they were. -/
structure Unchanged (m : Machine H) (w : World H) : Prop where
  source : w.source = m.world.source
  now : w.now = m.world.now
  contexts : ∀ u, w.context? u = m.world.context? u

section Writing

variable {P Q : Mark H → Prop} {w w' w'' : World H}

theorem Writes.silent (hmarks : w'.marks = w.marks) : Writes P w w' := ⟨[], hmarks, by simp⟩

theorem Writes.mark (mark : Mark H) (hmarks : w'.marks = mark :: w.marks) (hP : P mark) :
    Writes P w w' :=
  ⟨[mark], hmarks, by simpa using hP⟩

theorem Writes.trans (h : Writes P w w') (h' : Writes P w' w'') : Writes P w w'' := by
  obtain ⟨ms, hmarks, hms⟩ := h
  obtain ⟨ms', hmarks', hms'⟩ := h'
  refine ⟨ms' ++ ms, by rw [hmarks', hmarks, List.append_assoc], fun mark hin => ?_⟩
  exact (List.mem_append.mp hin).elim (hms' mark) (hms mark)

theorem Writes.mono (h : Writes P w w') (hPQ : ∀ mark, P mark → Q mark) : Writes Q w w' := by
  obtain ⟨ms, hmarks, hms⟩ := h
  exact ⟨ms, hmarks, fun mark hin => hPQ mark (hms mark hin)⟩

end Writing

section Backed

variable {m : Machine H} {w : World H} {layers : List (Layer H)}

/-! ## Ending an outermost scope -/

theorem returnFrom_backed (hl : layers <:+ m.layers) (u : UnitId) (h : Handle)
    (outcome : Outcome H) : IsBacked m w (returnFrom w layers u h outcome) :=
  .mark (.returned u h outcome) rfl ⟨rfl, hl⟩

/-- An effect starts that has its turn. -/
theorem nextEffect_backed (hl : layers <:+ m.layers) {held : List Handle} {u : UnitId} {h : Handle}
    {index : Nat} {effects : List (List (Step H))} {value : Value}
    (hturn : ∀ effect rest, effects = effect :: rest → m.HasTurn u h index effect) :
    IsBacked m w (nextEffect w layers held u h index effects value) := by
  cases effects with
  | nil =>
    have hgone : Writes (Mark.IsDone m (returnFrom (w.letGo held) layers u h (.ok value))) w
        (w.letGo held) := .silent rfl
    exact hgone.trans (returnFrom_backed hl u h _)
  | cons effect rest =>
    exact .mark (.effectStarted u h index effect) rfl
      ⟨hturn effect rest rfl, rfl, held, rest, value, layers, rfl⟩

theorem marks_noteRollback (h : Handle) (failure : Option String) :
    (w.noteRollback h failure).marks = .ended .rollback h failure :: w.marks := by
  cases failure <;> rfl

theorem settle_backed (hl : layers <:+ m.layers) {failure : Option String} {call : Closing H}
    (ha : m.HasAnswer call.terminal call.handle failure) :
    IsBacked m w (settle w layers failure call) := by
  cases call with
  | commit held u h effects value =>
    have hnoted {m' : Machine H} : Writes (Mark.IsDone m m') w (w.noteEnded .commit h failure) :=
      .mark (.ended .commit h failure) rfl ha
    cases failure with
    | none => exact hnoted.trans (nextEffect_backed hl fun _ _ _ => .inl ⟨rfl, ha⟩)
    | some reason => exact hnoted.trans ((Writes.silent rfl).trans (returnFrom_backed hl u h _))
  | rollback held u h outcome =>
    have hnoted {m' : Machine H} : Writes (Mark.IsDone m m') w
        ((w.noteRollback h failure).letGo held) :=
      .mark (.ended .rollback h failure) (marks_noteRollback h failure) ha
    exact hnoted.trans (returnFrom_backed hl u h outcome)
  | direct u t h value rest => exact .mark (.ended t h failure) rfl ha

/-- When a call has been answered, nothing happens to the source but that some let go. -/
theorem source_settle (w : World H) (layers : List (Layer H)) (failure : Option String)
    (call : Closing H) :
    ∃ held : List Handle, (settle w layers failure call).world.source =
      held.foldl (fun s h => s.letGo h) w.source := by
  cases call with
  | commit held u h effects value =>
    cases failure with
    | none =>
      cases effects with
      | nil => exact ⟨held, rfl⟩
      | cons effect rest => exact ⟨[], rfl⟩
    | some reason => exact ⟨held, rfl⟩
  | rollback held u h outcome => cases failure <;> exact ⟨held, rfl⟩
  | direct u t h value rest => exact ⟨[], rfl⟩

theorem startFinish_eq (t : Terminal) (h : Handle) :
    (w.startFinish t h).1 = (w.source.finish t h).1 ∧
      (w.startFinish t h).2.source = (w.source.finish t h).2 ∧
      (w.startFinish t h).2.marks = .ending t h :: w.marks := by
  have hsource : ((w.mark (.ending t h)).recordCall (.finish t)).source = w.source :=
    source_recordCall ..
  refine ⟨?_, ?_, marks_recordCall ..⟩
  · show (Source.finish t h ((w.mark (.ending t h)).recordCall (.finish t)).source).1 = _
    rw [hsource]
  · show (Source.finish t h ((w.mark (.ending t h)).recordCall (.finish t)).source).2 = _
    rw [hsource]

/-- The call is made; it is answered in the same step, or the run waits for the answer. -/
theorem startClosing_backed (hl : layers <:+ m.layers) (hsource : w.source = m.world.source)
    (hnow : w.now = m.world.now) (call : Closing H) :
    IsBacked m w (startClosing w layers call) := by
  obtain ⟨hanswer, hcalled, hmarks⟩ := startFinish_eq (w := w) call.terminal call.handle
  rw [hsource] at hanswer hcalled
  unfold startClosing
  dsimp only
  rw [hanswer]
  split
  · next hdelay =>
    have hhas : m.HasAnswer call.terminal call.handle
        (m.world.source.finish call.terminal call.handle).1.failure := .inl (by rw [← hdelay])
    obtain ⟨held, hheld⟩ := source_settle (w.startFinish call.terminal call.handle).2 layers
      (m.world.source.finish call.terminal call.handle).1.failure call
    rw [hcalled] at hheld
    exact (Writes.mark _ hmarks ⟨⟨held, hheld⟩, fun hlate => absurd hdelay hlate⟩).trans
      (settle_backed hl hhas)
  · exact .mark _ hmarks ⟨⟨[], hcalled⟩, fun _ => ⟨call, rfl, rfl, by rw [hnow]⟩⟩

theorem closeScope_backed {u : UnitId} {h : Handle} {outcome : Outcome H}
    (hfocus : m.focus = .finish outcome) (hlayers : m.layers = .frame (.outer u h) :: layers) :
    IsBacked m m.world (closeScope m.world layers u h outcome) := by
  have hl : layers <:+ m.layers := hlayers ▸ List.suffix_cons _ _
  cases hx : m.world.context? u with
  | none =>
    simp only [closeScope, hx]
    have hstrayed {m' : Machine H} : Writes (Mark.IsDone m m') m.world
        ((m.world.mark (.strayed u h)).letGo [h]) :=
      .mark (.strayed u h) rfl ⟨⟨outcome, hfocus⟩, ⟨layers, hlayers⟩, hx⟩
    exact hstrayed.trans (returnFrom_backed hl u h _)
  | some c =>
    obtain ⟨w', call, heq, hsource, hnow, hmarks⟩ := exists_startClosing layers h outcome hx
    rw [heq]
    exact (Writes.mark _ hmarks ⟨hfocus, ⟨layers, hlayers⟩, rfl⟩).trans
      (startClosing_backed hl hsource hnow call)

/-! ## Beginning a scope -/

theorem World.context?_setContext (w : World H) (u : UnitId)
    (c : Option (Context (List (Step H)))) : (w.setContext u c).context? u = c := by
  rw [World.context?, World.setContext, World.unit_onUnit, if_pos rfl]

theorem World.isCancelled_cancel (w : World H) (u : UnitId) :
    (w.cancel u).isCancelled u = true := by
  rw [World.isCancelled, World.cancel, World.unit_onUnit, if_pos rfl]

/-- The context that is opened is the new one; one that stood there is told of. -/
theorem openScope_backed (hx : ∀ v, w.context? v = m.world.context? v) {u : UnitId}
    {body : List (Step H)} (hbegins : m.Begins u body) (h : Handle) :
    IsBacked m w (openScope w layers u h body) := by
  have hset : (w.openContext u h).context? u = some (.start h) := by
    unfold World.openContext
    dsimp only
    split <;> exact World.context?_setContext ..
  have hopened : Mark.IsDone m (openScope w layers u h body) (.opened u h) :=
    ⟨hset, ⟨body, hbegins, rfl⟩, layers, rfl⟩
  cases hold : w.context? u with
  | none =>
    have hnone : (w.mark (.opened u h)).context? u = none := hold
    have hmarks : (w.openContext u h).marks = .opened u h :: w.marks := by
      simp only [World.openContext, hnone]
      rfl
    exact .mark _ hmarks hopened
  | some c =>
    have hsome : (w.mark (.opened u h)).context? u = some c := hold
    have hmarks : (w.openContext u h).marks = .replaced u c.handle :: .opened u h :: w.marks := by
      simp only [World.openContext, hsome]
      rfl
    have hreplaced : Mark.IsDone m (openScope w layers u h body) (.replaced u c.handle) :=
      ⟨c, hx u ▸ hold, rfl⟩
    exact ⟨[_, _], hmarks, by simpa using ⟨hreplaced, hopened⟩⟩

theorem failUnserved_backed (wait : Acquiring) (u : UnitId) (e : TransactionError) :
    IsBacked m w (failUnserved (wait.withdraw w) layers u e) := by
  have hmarks : (wait.withdraw w).marks = w.marks := by cases wait <;> rfl
  exact .mark (.unserved u e) (congrArg _ hmarks) rfl

theorem tryAcquire_backed (hx : ∀ v, w.context? v = m.world.context? v) {u : UnitId}
    {body : List (Step H)} (hbegins : m.Begins u body) (limit : Option (Nat × Nat))
    (wait : Acquiring) : IsBacked m w (tryAcquire w layers u body limit wait) := by
  unfold tryAcquire
  split
  · cases wait with
    | ticket number =>
      -- the source that is left after the claim has no part in what is told
      let claimed : World H := { w with source := (w.source.claim number).2 }
      have hclaimed : ∀ v, claimed.context? v = m.world.context? v := hx
      exact openScope_backed hclaimed hbegins (w.source.claim number).1
    | answer due reply =>
      cases reply with
      | ok h => exact openScope_backed hx hbegins h
      | error reason => exact failUnserved_backed (.answer due (.error reason)) u _
  · split
    · split
      · exact failUnserved_backed wait u _
      · exact .silent rfl
    · exact .silent rfl

theorem request_eq (u : UnitId) :
    (w.request u).1 = w.source.begin.1 ∧ (w.request u).2.source = w.source.begin.2 ∧
      (w.request u).2.now = w.now ∧ (∀ v, (w.request u).2.context? v = w.context? v) ∧
      (w.request u).2.marks = .requested u :: w.marks := by
  have hsource : ((w.mark (.requested u)).recordCall .begin).source = w.source :=
    source_recordCall ..
  refine ⟨?_, ?_, ?_, fun v => ?_, marks_recordCall ..⟩
  · show (Source.begin ((w.mark (.requested u)).recordCall .begin).source).1 = _
    rw [hsource]
  · show (Source.begin ((w.mark (.requested u)).recordCall .begin).source).2 = _
    rw [hsource]
  · show ((w.mark (.requested u)).recordCall .begin).now = w.now
    unfold World.recordCall
    split <;> rfl
  · show ((w.mark (.requested u)).recordCall .begin).context? v = w.context? v
    unfold World.recordCall
    split <;> rfl

/-- The source is asked, and the run goes on with its answer. -/
theorem beginOutermost_backed (hsame : Unchanged m w) {u : UnitId} {body : List (Step H)}
    (hbegins : m.Begins u body) : IsBacked m w (beginOutermost w layers u body) := by
  obtain ⟨hanswer, hafter, hclock, hcontexts, hmarks⟩ := request_eq (w := w) u
  rw [hsame.source] at hanswer hafter
  rw [hsame.now] at hclock
  have hrequested : ∀ v, (w.request u).2.context? v = m.world.context? v :=
    fun v => (hcontexts v).trans (hsame.contexts v)
  have hasks : Machine.Asks u m (beginOutermost w layers u body) := by
    refine ⟨(w.request u).2, layers, body, w.acquireLimit.map fun ms => (m.world.now + ms, ms),
      hbegins, hafter, hclock, ?_⟩
    unfold beginOutermost
    cases hbegun : m.world.source.begin.1 <;> simp only [hanswer, hbegun, hclock, hsame.now]
  refine (Writes.mark (.requested u) hmarks hasks).trans ?_
  unfold beginOutermost
  dsimp only
  split
  · exact openScope_backed hrequested hbegins _
  · exact tryAcquire_backed hrequested hbegins _ _
  · exact tryAcquire_backed hrequested hbegins _ _

theorem enterScope_backed (hsame : Unchanged m w) {u : UnitId} {body : List (Step H)}
    (hbegins : m.Begins u body) : IsBacked m w (enterScope w layers u body) := by
  unfold enterScope
  split
  · next hcancelled => exact .mark (.refused u) rfl ⟨hcancelled, rfl⟩
  · split
    · next c hc =>
      have hentered : (w.enterNested u c).context? u = some c.enter :=
        World.context?_setContext ..
      exact .mark (.nestedBegun u c.handle) rfl
        ⟨⟨c, hsame.contexts u ▸ hc, rfl, hentered⟩, ⟨body, hbegins, rfl⟩, layers, rfl⟩
    · exact beginOutermost_backed hsame hbegins

end Backed

/-! ## Dropping -/

/-- The mark tells of something that is dropped, or that a panic goes through. -/
def Mark.isCut : Mark H → Bool
  | .withdrawn _ => true
  | .nestedEnded _ _ none => true
  | .interrupted .. => true
  | .lost _ => true
  | .callDropped _ => true
  | _ => false

theorem Mark.isDone_of_isCut {m m' : Machine H} {mark : Mark H} (hd : m.Drops)
    (h : mark.isCut = true) : mark.IsDone m m' := by
  cases mark with
  | withdrawn u => exact hd
  | interrupted u h => exact hd
  | lost h => exact hd
  | callDropped h => exact hd
  | nestedEnded u h outcome =>
    cases outcome with
    | none => exact hd
    | some outcome => cases h
  | _ => cases h

/-- From one world to another nothing is told but what is dropped. -/
abbrev Cuts : World H → World H → Prop := Writes fun mark => mark.isCut = true

theorem interrupt_cuts (w : World H) (u : UnitId) (h : Handle) : Cuts w (w.interrupt u h) := by
  unfold World.interrupt
  dsimp only
  split
  · exact .mark (.interrupted u h) rfl rfl
  · next c hx =>
    split
    · exact .mark (.interrupted u h) rfl rfl
    · exact ⟨[.lost c.handle, .interrupted u h], rfl, by simp [Mark.isCut]⟩

theorem Frame.unwind_cuts (f : Frame H) (w : World H) : Cuts w (f.unwind w) := by
  cases f with
  | nested u h => exact .mark (.nestedEnded u h none) (marks_leaveNested w u h none) rfl
  | outer u h => exact (interrupt_cuts w u h).trans (.silent rfl)
  | effects held u h index rest value => exact .silent rfl
  | after u how value rest => exact .silent rfl
  | timeout u due value rest => exact .silent rfl
  | catchPanic u value rest => exact .silent rfl

mutual

theorem Paused.abandon_cuts (p : Paused H) (w : World H) : Cuts w (p.abandon w) := by
  match p with
  | .sleeping _ => exact .silent rfl
  | .yielded => exact .silent rfl
  | .acquiring u _ _ wait =>
    have hmarks : (wait.withdraw w).marks = w.marks := by cases wait <;> rfl
    rw [Paused.abandon]
    exact .mark (.withdrawn u) (congrArg _ hmarks) rfl
  | .closing _ _ call =>
    rw [Paused.abandon]
    exact .mark (.callDropped call.handle) rfl rfl
  | .under frame inner => exact (inner.abandon_cuts w).trans (frame.unwind_cuts (inner.abandon w))
  | .branches _ items => exact Paused.abandonAll_cuts items w

theorem Paused.abandonAll_cuts (items : List (Branch H (Paused H))) (w : World H) :
    Cuts w (Paused.abandonAll items w) := by
  match items with
  | [] => exact .silent rfl
  | .paused p :: rest => exact (p.abandon_cuts w).trans (Paused.abandonAll_cuts rest (p.abandon w))
  | .idle _ :: rest => exact Paused.abandonAll_cuts rest w
  | .finished :: rest => exact Paused.abandonAll_cuts rest w

end

theorem Writes.isDone {m m' : Machine H} {w w' : World H} (h : Cuts w w') (hd : m.Drops) :
    Writes (Mark.IsDone m m') w w' :=
  h.mono fun _ hcut => Mark.isDone_of_isCut hd hcut

/-! ## Steps -/

section Steps

variable {w : World H} {layers : List (Layer H)}

theorem world_visit (w : World H) (layers : List (Layer H)) (u : UnitId)
    (done todo : List (Branch H (Paused H))) : (visit w layers u done todo).world = w :=
  congrArg Scene.world (scene_visit w layers u done todo)

theorem execStep_backed (v : UnitId) (value : Value) (rest : List (Step H)) (s : Step H) :
    IsBacked ⟨w, layers, .exec v value (s :: rest)⟩ w (execStep w layers v value rest s) := by
  have hl : layers <:+ (⟨w, layers, .exec v value (s :: rest)⟩ : Machine H).layers :=
    List.suffix_refl _
  have hsame : Unchanged ⟨w, layers, .exec v value (s :: rest)⟩ w := ⟨rfl, rfl, fun _ => rfl⟩
  have hadded : Unchanged ⟨w, layers, .exec v value (s :: rest)⟩ w.addUnit.2 :=
    ⟨rfl, rfl, w.context?_addUnit⟩
  have hopens (u : UnitId) (body : List (Step H)) (hu : s.opensOn? w v = some u)
      (hbody : s.work? = some body) :
      Machine.Begins u body ⟨w, layers, .exec v value (s :: rest)⟩ :=
    .inl ⟨v, value, s, rest, rfl, hu, hbody⟩
  cases s with
  | perform action =>
    simp only [execStep]
    split <;> exact .silent rfl
  | note v => exact .silent rfl
  | announce id => exact .silent rfl
  | probe what =>
    refine .silent (marks_record ?_)
    cases what with
    | state => unfold probe; dsimp only; split <;> rfl
    | describe => rfl
    | transaction => rfl
    | token => rfl
    | source => rfl
  | give v => exact .silent rfl
  | fail fault => exact .silent rfl
  | panic => exact .silent rfl
  | sleep ms =>
    simp only [execStep]
    split <;> exact .silent rfl
  | yield => exact .silent rfl
  | cancel unit =>
    cases unit with
    | none => exact .mark (.cancelled v) rfl (w.isCancelled_cancel v)
    | some name =>
      exact .mark (.cancelled (w.named name).1) (congrArg _ (marks_named name))
        (World.isCancelled_cancel ..)
  | armCommitFailure => exact .silent rfl
  | finish t =>
    simp only [execStep]
    split
    · exact .silent rfl
    · next c hx =>
      have hdirect {m' : Machine H} : Writes (Mark.IsDone
          ⟨w, layers, .exec v value (.finish t :: rest)⟩ m') w (w.mark (.direct v c.handle)) :=
        .mark (.direct v c.handle) rfl ⟨⟨value, t, rest, rfl⟩, c, hx, rfl⟩
      have hcall := startClosing_backed (w := w.mark (.direct v c.handle)) hl hsame.source hsame.now
        (.direct v t c.handle value rest)
      exact hdirect.trans hcall
  | scope place report body =>
    cases place with
    | here => exact enterScope_backed hsame (hopens _ _ rfl rfl)
    | fresh => exact (Writes.silent rfl).trans (enterScope_backed hadded (hopens _ _ rfl rfl))
  | within place body =>
    cases place with
    | here => exact enterScope_backed hsame (hopens _ _ rfl rfl)
    | fresh => exact (Writes.silent rfl).trans (enterScope_backed hadded (hopens _ _ rfl rfl))
  | timeout ms body => exact enterScope_backed hsame (hopens _ _ rfl rfl)
  | catchPanic body => exact enterScope_backed hsame (hopens _ _ rfl rfl)
  | defer strict effect =>
    simp only [execStep]
    split
    · next c hx =>
      have hset : (w.deferEffect v c effect).context? v = some (c.defer effect) :=
        World.context?_setContext ..
      exact .mark (.deferred v c.handle effect) rfl ⟨c, hx, rfl, hset⟩
    · split <;> exact .silent rfl
  | onUnit name body => exact .silent (marks_named name)
  | iterate count body => cases count <;> exact .silent rfl
  | join branches =>
    simp only [execStep]
    exact .silent (congrArg World.marks (world_visit ..))

theorem resume_backed (outcome : Outcome H) (f : Frame H) :
    IsBacked ⟨w, .frame f :: layers, .finish outcome⟩ w (resume w layers outcome f) := by
  cases f with
  | after u how value rest =>
    have hreport : (report w outcome how).1.marks = w.marks := by
      cases how <;> cases outcome <;> rfl
    simp only [resume]
    split <;> exact .silent hreport
  | nested u h =>
    rw [resume]
    exact .mark _ (marks_leaveNested w u h _) ⟨rfl, rfl⟩
  | outer u h =>
    exact closeScope_backed (m := ⟨w, .frame (.outer u h) :: layers, .finish outcome⟩) rfl rfl
  | effects held u h index rest value =>
    have hturn : ∀ effect others, rest = effect :: others → Machine.HasTurn u h (index + 1) effect
        ⟨w, .frame (.effects held u h index rest value) :: layers, .finish outcome⟩ := by
      rintro effect others rfl
      exact .inr ⟨index, outcome, held, others, value, layers, rfl, rfl, rfl⟩
    cases outcome with
    | ok v => exact nextEffect_backed (List.suffix_cons _ _) hturn
    | error e => exact (Writes.silent rfl).trans (nextEffect_backed (List.suffix_cons _ _) hturn)
  | timeout u due value rest => exact .silent rfl
  | catchPanic u value rest => exact .silent rfl

theorem enter_backed (p : Paused H) : IsBacked ⟨w, layers, .enter p⟩ w (enter w layers p) := by
  cases p with
  | sleeping due =>
    simp only [enter]
    split <;> exact .silent rfl
  | yielded => exact .silent rfl
  | acquiring u body limit wait =>
    simp only [enter]
    split
    · exact failUnserved_backed wait u .cancelled
    · exact tryAcquire_backed (fun _ => rfl) (.inr ⟨limit, wait, rfl⟩) limit wait
  | closing due failure call =>
    simp only [enter]
    split
    · next hdue =>
      exact settle_backed (List.suffix_refl _) (.inr ⟨due, call, rfl, hdue, rfl, rfl⟩)
    · exact .silent rfl
  | under frame inner =>
    simp only [enter]
    split
    · next hcut =>
      exact (inner.abandon_cuts w).isDone (.inl ⟨frame, inner, rfl, hcut⟩)
    · exact .silent rfl
  | branches u items => exact .silent (congrArg World.marks (world_visit ..))

theorem suspend_backed (p : Paused H) (f : Frame H) :
    IsBacked ⟨w, .frame f :: layers, .pause p⟩ w (suspend w layers p f) := by
  cases f with
  | timeout u due value rest =>
    simp only [suspend]
    split
    · next hdue =>
      have hdropped := (p.abandon_cuts w).trans
        (.silent (marks_record (w := p.abandon w) (e := .timeout none) rfl))
      exact hdropped.isDone (.inr (.inl ⟨p, u, due, value, rest, layers, rfl, rfl, hdue⟩))
    · exact .silent rfl
  | after u how value rest => exact .silent rfl
  | nested u h => exact .silent rfl
  | outer u h => exact .silent rfl
  | effects held u h index rest value => exact .silent rfl
  | catchPanic u value rest => exact .silent rfl

theorem panicThrough_backed (f : Frame H) :
    IsBacked ⟨w, .frame f :: layers, .unwind⟩ w (panicThrough w layers f) := by
  have hunwound := f.unwind_cuts w
  cases f with
  | catchPanic u value rest => exact .silent rfl
  | after u how value rest => exact hunwound.isDone (.inr (.inr rfl))
  | nested u h => exact hunwound.isDone (.inr (.inr rfl))
  | outer u h => exact hunwound.isDone (.inr (.inr rfl))
  | effects held u h index rest value => exact hunwound.isDone (.inr (.inr rfl))
  | timeout u due value rest => exact hunwound.isDone (.inr (.inr rfl))

/-- Every step has done what it tells. -/
theorem Machine.step_backed (m : Machine H) : IsBacked m m.world m.step := by
  obtain ⟨w, layers, focus⟩ := m
  cases focus with
  | enter p => exact enter_backed p
  | exec v value steps =>
    cases steps with
    | nil => exact .silent rfl
    | cons s rest => exact execStep_backed v value rest s
  | finish outcome =>
    cases layers with
    | nil => exact .silent rfl
    | cons l layers =>
      cases l with
      | frame f => exact resume_backed outcome f
      | joining v done todo =>
        have hvisit := congrArg World.marks (world_visit (w.record (.branch done.length outcome))
          layers v (.finished :: done) todo)
        exact .silent hvisit
  | unwind =>
    cases layers with
    | nil => exact .silent rfl
    | cons l layers =>
      cases l with
      | frame f => exact panicThrough_backed f
      | joining v done todo =>
        exact (Paused.abandonAll_cuts (done.reverse ++ todo) w).isDone (.inr (.inr rfl))
  | pause p =>
    cases layers with
    | nil => exact .silent rfl
    | cons l layers =>
      cases l with
      | frame f => exact suspend_backed p f
      | joining v done todo => exact .silent (congrArg World.marks (world_visit ..))

end Steps

/-! ## Rollbacks in the background -/

/-- What a look at a rollback in the background has done when it writes a mark: the call is made,
    and awaited if its answer takes time, or the answer is there. -/
def Mark.IsSeenTo (c : Cleanup) (w w' : World H) : Mark H → Prop
  | .ending .rollback h =>
    let called := w.source.finish .rollback h
    c = .fresh h ∧ (∃ held : List Handle, w'.source = held.foldl (fun s h => s.letGo h) called.2) ∧
      (called.1.delay ≠ 0 →
        .waiting h (w.now + called.1.delay) called.1.failure ∈ w'.background)
  | .ended .rollback h failure =>
    c = .fresh h ∧ (w.source.finish .rollback h).1 = ⟨0, failure⟩ ∨
      ∃ due, c = .waiting h due failure ∧ due ≤ w.now
  | _ => False

/-- The background has been emptied, and some rollbacks that stood there have been looked at. -/
def World.lookAt (cs : List Cleanup) (w : World H) : World H :=
  cs.foldl World.pollCleanup { w with background := [] }

/-- The mark is done by the look at one of the rollbacks in the background, after those in front of
    it have been looked at. -/
def Mark.IsBehind (w : World H) (mark : Mark H) : Prop :=
  ∃ before c after, w.background = before ++ c :: after ∧
    mark.IsSeenTo c (w.lookAt before) ((w.lookAt before).pollCleanup c)

theorem World.lookAt_concat (before : List Cleanup) (c : Cleanup) (w : World H) :
    w.lookAt (before ++ [c]) = (w.lookAt before).pollCleanup c :=
  List.foldl_concat ..

theorem marks_endCleanup (w : World H) (h : Handle) (failure : Option String) :
    (w.endCleanup h failure).marks = .ended .rollback h failure :: w.marks :=
  marks_noteRollback h failure

theorem source_endCleanup (w : World H) (h : Handle) (failure : Option String) :
    (w.endCleanup h failure).source = w.source.letGo h := by
  cases failure <;> rfl

theorem pollCleanup_backed (c : Cleanup) (w : World H) :
    Writes (Mark.IsSeenTo c w (w.pollCleanup c)) w (w.pollCleanup c) := by
  cases c with
  | fresh h =>
    obtain ⟨hanswer, hcalled, hmarks⟩ := startFinish_eq (w := w) .rollback h
    unfold World.pollCleanup
    dsimp only
    rw [hanswer]
    split
    · next hdelay =>
      have hsource := source_endCleanup (w.startFinish .rollback h).2 h
        (w.source.finish .rollback h).1.failure
      rw [hcalled] at hsource
      exact (Writes.mark (.ending .rollback h) hmarks
        ⟨rfl, ⟨[h], hsource⟩, fun hlate => absurd hdelay hlate⟩).trans
          (.mark _ (marks_endCleanup _ h _) (.inl ⟨rfl, by rw [← hdelay]⟩))
    · exact .mark (.ending .rollback h) hmarks
        ⟨rfl, ⟨[], hcalled⟩, fun _ => List.mem_append_right _ (List.mem_singleton_self _)⟩
  | waiting h due failure =>
    simp only [World.pollCleanup]
    split
    · next hdue =>
      exact .mark _ (marks_endCleanup w h failure) (.inr ⟨due, rfl, hdue⟩)
    · exact .silent rfl

theorem runBackground_backed (w : World H) : Writes (Mark.IsBehind w) w w.runBackground := by
  -- by induction on the rollbacks that have not been looked at yet
  have hlooks (after : List Cleanup) : ∀ before, w.background = before ++ after →
      Writes (Mark.IsBehind w) (w.lookAt before) (w.lookAt (before ++ after)) := by
    induction after with
    | nil =>
      intro before _
      rw [List.append_nil]
      exact .silent rfl
    | cons c after ih =>
      intro before hbackground
      have hlook : Writes (Mark.IsBehind w) (w.lookAt before) (w.lookAt (before ++ [c])) := by
        rw [World.lookAt_concat]
        exact (pollCleanup_backed c _).mono fun _ hseen => ⟨before, c, after, hbackground, hseen⟩
      rw [List.append_cons] at hbackground ⊢
      exact hlook.trans (ih (before ++ [c]) hbackground)
  exact (Writes.silent rfl).trans (hlooks w.background [] rfl)

/-! ## Runs -/

/-- A change of a run does what a mark tells: as a step, as the background, or as what comes from
    outside, where units are cancelled and what is suspended is dropped. -/
inductive Mark.IsDoneBy (m m' : Machine H) : Mark H → Prop
  | step {mark : Mark H} (he : m' = m.step) (hd : mark.IsDone m m') : IsDoneBy m m' mark
  | background {mark : Mark H} (he : m'.world = m.world.runBackground)
      (hb : mark.IsBehind m.world) : IsDoneBy m m' mark
  | dropped {mark : Mark H} (p : Paused H) (hp : m.focus = .pause p)
      (he : m'.world = p.abandon m.world) (hc : mark.isCut = true) : IsDoneBy m m' mark
  | cancelled (u : UnitId) (he : m'.world = m.world.cancel u) : IsDoneBy m m' (.cancelled u)

section Reaching

variable {T : UnitId → Prop} {m m' : Machine H}

/-- What a change of a run writes is done by the change. -/
theorem Move.writes (hmove : Move T m m') : Writes (Mark.IsDoneBy m m') m.world m'.world := by
  cases hmove with
  | step ho => exact m.step_backed.mono fun mark hdone => .step rfl hdone
  | poll => exact .silent rfl
  | @drop w p => exact (p.abandon_cuts w).mono fun mark hcut => .dropped p rfl rfl hcut
  | next u value steps => exact .silent rfl
  | restart u value steps => exact .silent rfl
  | @background w layers focus =>
    exact (runBackground_backed w).mono fun mark hbehind => .background rfl hbehind
  | elapse now => exact .silent rfl
  | share source hs => exact .silent rfl
  | cancel u => exact .mark (.cancelled u) rfl (.cancelled u rfl)

/-- What stands in a journal after something new has been written stood there before, or is new. -/
theorem suffix_or_mem {mark : Mark H} {older ms marks : List (Mark H)}
    (hs : mark :: older <:+ ms ++ marks) :
    mark :: older <:+ marks ∨ mark ∈ ms ∧ marks <:+ older := by
  obtain hold | hnew := List.suffix_or_suffix_of_suffix hs (List.suffix_append ms marks)
  · exact .inl hold
  · obtain rfl | hbefore := List.suffix_cons_iff.mp hnew
    · exact .inl (List.suffix_refl _)
    · obtain ⟨between, rfl⟩ := hbefore
      obtain ⟨newer, hsplit⟩ := hs
      have hms : newer ++ mark :: between = ms :=
        List.append_cancel_right (by rw [List.append_assoc]; exact hsplit)
      exact .inr ⟨hms ▸ List.mem_append_right _ List.mem_cons_self, List.suffix_append ..⟩

/-- A run has been through the change that has written a mark, and this change has done what the
    mark tells. -/
theorem Reached.exists_done (hr : Reached T m) {mark : Mark H} {older : List (Mark H)}
    (hs : mark :: older <:+ m.world.marks) :
    ∃ before after, Reached T before ∧ Move T before after ∧ Run T after m ∧
      before.world.marks <:+ older ∧ mark :: older <:+ after.world.marks ∧
      mark.IsDoneBy before after := by
  obtain ⟨w, u, value, steps, hw, hrun⟩ := hr
  induction hrun with
  | refl =>
    have hnone : mark :: older <:+ w.marks := hs
    rw [hw.marks] at hnone
    cases List.suffix_nil.mp hnone
  | @tail before after hrun hmove ih =>
    obtain ⟨ms, hmarks, hms⟩ := hmove.writes
    obtain hold | ⟨hnew, hbefore⟩ := suffix_or_mem (hmarks ▸ hs)
    · obtain ⟨m₁, m₂, hreached, hchange, hafter, hdone⟩ := ih hold
      exact ⟨m₁, m₂, hreached, hchange, hafter.tail hmove, hdone⟩
    · exact ⟨before, after, ⟨w, u, value, steps, hw, hrun⟩, hmove, .refl, hbefore, hs,
        hms mark hnew⟩

/-- A change of a run does to the source what it tells, unless somebody else uses the source. -/
theorem Move.anyDeeds (hmove : Move T m m') :
    AnyDeeds m.scene m'.scene ∨ ∃ source, m' = { m with world := { m.world with source } } := by
  cases hmove with
  | step ho => exact .inl m.step_anyDeeds
  | poll => exact .inl .refl
  | drop => exact .inl (drop_anyDeeds _ _)
  | next u value steps => exact .inl .refl
  | restart u value steps => exact .inl .refl
  | background => exact .inl (background_anyDeeds _ _ _)
  | elapse now => exact .inl (Deeds.silent rfl rfl)
  | share source hs => exact .inr ⟨source, rfl⟩
  | cancel u => exact .inl (Deeds.aside [.cancelled u] rfl rfl (by simp [Mark.isBooked]))

/-- The journal of a run tells what has happened. -/
structure TellsTrue (T : UnitId → Prop) (m : Machine H) : Prop where
  /-- The run has done what it tells, and in the very change that tells of it. -/
  done : ∀ mark older, mark :: older <:+ m.world.marks →
    ∃ before after, Reached T before ∧ Move T before after ∧ Run T after m ∧
      before.world.marks <:+ older ∧ mark :: older <:+ after.world.marks ∧
      mark.IsDoneBy before after
  /-- Nothing else has been done to the source: each change on the way is a few deeds that are told,
      unless somebody else uses the source. -/
  nothingElse : ∀ before after, Move T before after → Run T after m →
    AnyDeeds before.scene after.scene ∨
      ∃ source, after = { before with world := { before.world with source } }

theorem Reached.tellsTrue (hr : Reached T m) : TellsTrue T m :=
  ⟨fun _ _ hs => hr.exists_done hs, fun _ _ hmove _ => hmove.anyDeeds⟩

end Reaching

end BootEngine.Work
