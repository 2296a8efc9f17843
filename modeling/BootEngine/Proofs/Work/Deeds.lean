import BootEngine.Proofs.Work.Nesting

/-!
# What runs do to the source

A run calls its source in a few ways only: it asks for a transaction, comes for one that has been
granted, gives up waiting, ends a transaction, and holds on to one or lets it go. Each call goes
with the mark that is written down about it, and with those who wait in line. Everything else that a
step does leaves the source alone.

Contents:
* `Paused.waits`, `Machine.waits`: the scopes that wait for a transaction.
* `Scene`, `Deed`: the source, the marks and those who wait; one change of them.
* `nextEffect_deeds`, `enterScope_deeds` and the like: the functions of the machine.
* `Machine.step_deeds`, `Paused.abandon_deeds`, `World.runBackground_deeds`: the changes of a run.
-/

namespace BootEngine.Work

open Transaction (Terminal Handle Source Context Begun)

variable {H : Host}

/-! ## Who waits -/

mutual

/-- The scopes in a suspended computation that wait for a transaction. -/
def Paused.waits : Paused H → Multiset Acquiring
  | .acquiring _ _ _ wait => {wait}
  | .under _ inner => inner.waits
  | .branches _ items => Paused.waitsAll items
  | .sleeping _ => 0
  | .yielded => 0
  | .closing .. => 0

/-- The scopes in branches that wait for a transaction. -/
def Paused.waitsAll : List (Branch H (Paused H)) → Multiset Acquiring
  | [] => 0
  | .paused p :: rest => p.waits + Paused.waitsAll rest
  | .idle _ :: rest => Paused.waitsAll rest
  | .finished :: rest => Paused.waitsAll rest

end

/-- The scopes in layers that wait for a transaction. -/
def Layer.waitsAll : List (Layer H) → Multiset Acquiring
  | [] => 0
  | .frame _ :: rest => Layer.waitsAll rest
  | .joining _ done todo :: rest =>
    Paused.waitsAll done + Paused.waitsAll todo + Layer.waitsAll rest

/-- The scopes in the focus that wait for a transaction. -/
def Focus.waits : Focus H → Multiset Acquiring
  | .enter p => p.waits
  | .pause p => p.waits
  | _ => 0

/-- The scopes of a run that wait for a transaction. -/
def Machine.waits (m : Machine H) : Multiset Acquiring := m.focus.waits + Layer.waitsAll m.layers

theorem Paused.waitsAll_append (bs cs : List (Branch H (Paused H))) :
    Paused.waitsAll (bs ++ cs) = Paused.waitsAll bs + Paused.waitsAll cs := by
  induction bs with
  | nil => exact (Multiset.zero_add _).symm
  | cons b rest ih =>
    cases b with
    | idle steps => exact ih
    | finished => exact ih
    | paused p => rw [List.cons_append, Paused.waitsAll, ih, Paused.waitsAll, Multiset.add_assoc]

theorem Paused.waitsAll_reverse (bs : List (Branch H (Paused H))) :
    Paused.waitsAll bs.reverse = Paused.waitsAll bs := by
  induction bs with
  | nil => rfl
  | cons b rest ih =>
    have hb : Paused.waitsAll (b :: rest) = Paused.waitsAll [b] + Paused.waitsAll rest :=
      Paused.waitsAll_append [b] rest
    rw [List.reverse_cons, Paused.waitsAll_append, ih, hb, Multiset.add_comm]

theorem Paused.waitsAll_map_idle (bs : List (List (Step H))) :
    Paused.waitsAll (bs.map Branch.idle) = 0 := by
  induction bs with
  | nil => rfl
  | cons b rest ih => exact ih

theorem Paused.waitsAll_of_all_finished {bs : List (Branch H (Paused H))}
    (h : (bs.all fun | .finished => true | _ => false) = true) : Paused.waitsAll bs = 0 := by
  induction bs with
  | nil => rfl
  | cons b rest ih =>
    rw [List.all_cons, Bool.and_eq_true] at h
    cases b with
    | finished => exact ih h.2
    | idle steps => simp at h
    | paused p => simp at h

/-! ## Deeds -/

/-- The shared state of a run, and who waits in it for a transaction. -/
structure Scene (H : Host) where
  world : World H
  waits : Multiset Acquiring

/-- The scene of a run. -/
def Machine.scene (m : Machine H) : Scene H := ⟨m.world, m.waits⟩

/-- The mark goes with a call that the source has answered. -/
def Mark.isBooked : Mark H → Bool
  | .opened .. => true
  | .ending .. => true
  | _ => false

/-- The mark tells that the work of a scope has run to its end. -/
def Mark.isCompletion : Mark H → Bool
  | .workEnded .. => true
  | .nestedEnded _ _ (some _) => true
  | _ => false

/-- One change of a scene; the marks that it adds have a property. -/
inductive Deed (P : Mark H → Prop) : Scene H → Scene H → Prop
  /-- The source is left alone. -/
  | aside {w w' : World H} {s : Multiset Acquiring} (ms : List (Mark H))
      (hsource : w'.source = w.source) (hmarks : w'.marks = ms ++ w.marks)
      (hms : ∀ m ∈ ms, m.isBooked = false ∧ P m) : Deed P ⟨w, s⟩ ⟨w', s⟩
  /-- The next commit will fail. -/
  | arm {w w' : World H} {s : Multiset Acquiring} (hsource : w'.source = w.source.armCommitFailure)
      (hmarks : w'.marks = w.marks) : Deed P ⟨w, s⟩ ⟨w', s⟩
  /-- Somebody lets go of a transaction. -/
  | letGo {w w' : World H} {s : Multiset Acquiring} (h : Handle)
      (hsource : w'.source = w.source.letGo h) (hmarks : w'.marks = w.marks) :
      Deed P ⟨w, s⟩ ⟨w', s⟩
  /-- A scope asks for a transaction and has it at once. -/
  | opened {w w' : World H} {s : Multiset Acquiring} {source : Source} {h : Handle} (u : UnitId)
      (hbegin : w.source.begin = (.opened h, source)) (hsource : w'.source = source.retain h)
      (hmarks : w'.marks = .opened u h :: .requested u :: w.marks)
      (hP : P (.opened u h) ∧ P (.requested u)) : Deed P ⟨w, s⟩ ⟨w', s⟩
  /-- A scope asks for a transaction and gets in line. -/
  | queued {w w' : World H} {s : Multiset Acquiring} {source : Source} {number : Nat} (u : UnitId)
      (hbegin : w.source.begin = (.queued number, source)) (hsource : w'.source = source)
      (hmarks : w'.marks = .requested u :: w.marks) (hP : P (.requested u)) :
      Deed P ⟨w, s⟩ ⟨w', .ticket number ::ₘ s⟩
  /-- A scope asks for a transaction and will be answered. -/
  | promised {w w' : World H} {s : Multiset Acquiring} {source : Source} {delay : Nat}
      {reply : Except String Handle} (u : UnitId) (due : Nat)
      (hbegin : w.source.begin = (.answering delay reply, source)) (hsource : w'.source = source)
      (hmarks : w'.marks = .requested u :: w.marks) (hP : P (.requested u)) :
      Deed P ⟨w, s⟩ ⟨w', .answer due reply ::ₘ s⟩
  /-- A scope comes for the permit that it was handed. -/
  | claimed {w w' : World H} {s : Multiset Acquiring} {number : Nat} (u : UnitId)
      (hgranted : w.source.isGranted number = true)
      (hsource : w'.source = (w.source.claim number).2.retain (w.source.claim number).1)
      (hmarks : w'.marks = .opened u (w.source.claim number).1 :: w.marks)
      (hP : P (.opened u (w.source.claim number).1)) :
      Deed P ⟨w, .ticket number ::ₘ s⟩ ⟨w', s⟩
  /-- A scope has the answer that it was promised. -/
  | answered {w w' : World H} {s : Multiset Acquiring} {due : Nat} {h : Handle} (u : UnitId)
      (hsource : w'.source = w.source.retain h) (hmarks : w'.marks = .opened u h :: w.marks)
      (hP : P (.opened u h)) : Deed P ⟨w, .answer due (.ok h) ::ₘ s⟩ ⟨w', s⟩
  /-- A scope waits no longer. -/
  | gaveUp {w w' : World H} {s : Multiset Acquiring} (wait : Acquiring) (m : Mark H)
      (hsource : w'.source = (wait.withdraw w).source) (hmarks : w'.marks = m :: w.marks)
      (hm : m.isBooked = false ∧ P m) : Deed P ⟨w, wait ::ₘ s⟩ ⟨w', s⟩
  /-- A transaction is ended. -/
  | ended {w w' : World H} {s : Multiset Acquiring} (t : Terminal) (h : Handle)
      (hsource : w'.source = (w.source.finish t h).2) (hmarks : w'.marks = .ending t h :: w.marks)
      (hP : P (.ending t h)) : Deed P ⟨w, s⟩ ⟨w', s⟩

/-- What a deed writes down. -/
theorem Deed.marks {P : Mark H → Prop} {before after : Scene H} (hdeed : Deed P before after) :
    ∃ ms, after.world.marks = ms ++ before.world.marks ∧ ∀ m ∈ ms, P m := by
  cases hdeed with
  | aside ms hsource hmarks hms => exact ⟨ms, hmarks, fun m hm => (hms m hm).2⟩
  | arm hsource hmarks => exact ⟨[], hmarks, by simp⟩
  | letGo h hsource hmarks => exact ⟨[], hmarks, by simp⟩
  | opened u hbegin hsource hmarks hP => exact ⟨[_, _], hmarks, by simpa using hP⟩
  | queued u hbegin hsource hmarks hP => exact ⟨[_], hmarks, by simpa using hP⟩
  | promised u due hbegin hsource hmarks hP => exact ⟨[_], hmarks, by simpa using hP⟩
  | claimed u hgranted hsource hmarks hP => exact ⟨[_], hmarks, by simpa using hP⟩
  | answered u hsource hmarks hP => exact ⟨[_], hmarks, by simpa using hP⟩
  | gaveUp wait m hsource hmarks hm => exact ⟨[_], hmarks, by simpa using hm.2⟩
  | ended t h hsource hmarks hP => exact ⟨[_], hmarks, by simpa using hP⟩

/-- Deeds one after another. -/
abbrev Deeds (P : Mark H → Prop) : Scene H → Scene H → Prop := Relation.ReflTransGen (Deed P)

section Single

variable {P : Mark H → Prop} {w : World H} {s : Multiset Acquiring}

/-- A property of all marks but those that tell of work that has run to its end. -/
abbrev IsLenient (P : Mark H → Prop) : Prop := ∀ m : Mark H, m.isCompletion = false → P m

theorem Deeds.aside {w' : World H} (ms : List (Mark H)) (hsource : w'.source = w.source)
    (hmarks : w'.marks = ms ++ w.marks) (hms : ∀ m ∈ ms, m.isBooked = false ∧ P m) :
    Deeds P ⟨w, s⟩ ⟨w', s⟩ :=
  .single (.aside ms hsource hmarks hms)

/-- A change that writes nothing down and leaves the source alone. -/
theorem Deeds.silent {w' : World H} (hsource : w'.source = w.source)
    (hmarks : w'.marks = w.marks) : Deeds P ⟨w, s⟩ ⟨w', s⟩ :=
  .aside [] hsource hmarks (by simp)

theorem Deeds.mark (m : Mark H) (hm : m.isBooked = false ∧ P m) : Deeds P ⟨w, s⟩ ⟨w.mark m, s⟩ :=
  .aside [m] rfl rfl (by simpa using hm)

theorem Deeds.letGo (hs : List Handle) : Deeds P ⟨w, s⟩ ⟨w.letGo hs, s⟩ := by
  induction hs generalizing w with
  | nil => exact .refl
  | cons h rest ih =>
    have hfirst : Deed P ⟨w, s⟩ ⟨{ w with source := w.source.letGo h }, s⟩ := .letGo h rfl rfl
    exact .head hfirst ih

end Single

/-! ## What the states of a run show -/

section Showing

variable (w : World H) (layers : List (Layer H))

@[simp] theorem scene_finish (outcome : Outcome H) :
    (⟨w, layers, .finish outcome⟩ : Machine H).scene = ⟨w, Layer.waitsAll layers⟩ :=
  congrArg (Scene.mk w) (Multiset.zero_add _)

@[simp] theorem scene_exec (u : UnitId) (value : Value) (steps : List (Step H)) :
    (⟨w, layers, .exec u value steps⟩ : Machine H).scene = ⟨w, Layer.waitsAll layers⟩ :=
  congrArg (Scene.mk w) (Multiset.zero_add _)

@[simp] theorem scene_unwind :
    (⟨w, layers, .unwind⟩ : Machine H).scene = ⟨w, Layer.waitsAll layers⟩ :=
  congrArg (Scene.mk w) (Multiset.zero_add _)

@[simp] theorem scene_enter (p : Paused H) :
    (⟨w, layers, .enter p⟩ : Machine H).scene = ⟨w, p.waits + Layer.waitsAll layers⟩ := rfl

@[simp] theorem scene_pause (p : Paused H) :
    (⟨w, layers, .pause p⟩ : Machine H).scene = ⟨w, p.waits + Layer.waitsAll layers⟩ := rfl

@[simp] theorem waitsAll_frame (f : Frame H) :
    Layer.waitsAll (.frame f :: layers) = Layer.waitsAll layers := rfl

theorem scene_visit (u : UnitId) (done todo : List (Branch H (Paused H))) :
    (visit w layers u done todo).scene =
      ⟨w, Paused.waitsAll done + Paused.waitsAll todo + Layer.waitsAll layers⟩ := by
  induction todo generalizing done with
  | nil =>
    unfold visit
    split
    · next hall =>
      rw [scene_finish, Paused.waitsAll_of_all_finished hall]
      exact congrArg (Scene.mk w) (by simp [Paused.waitsAll])
    · rw [scene_pause, Paused.waits, Paused.waitsAll_reverse]
      exact congrArg (Scene.mk w) (by simp [Paused.waitsAll])
  | cons b rest ih =>
    cases b with
    | finished => exact ih (.finished :: done)
    | idle steps => exact scene_exec ..
    | paused p =>
      refine congrArg (Scene.mk w) ?_
      show p.waits + (Paused.waitsAll done + Paused.waitsAll rest + _) = _ + (p.waits + _) + _
      rw [← Multiset.add_assoc, ← Multiset.add_assoc, Multiset.add_comm p.waits,
        Multiset.add_assoc (Paused.waitsAll done)]

end Showing

/-! ## Ending an outermost scope -/

section Ending

variable {P : Mark H → Prop} {w : World H} {layers : List (Layer H)} {s : Multiset Acquiring}

theorem marks_record {e : Entry H} (he : e.mark? = none) : (w.record e).marks = w.marks := by
  simp [World.record, World.marks, he]

theorem source_recordCall (call : Transaction.Call) : (w.recordCall call).source = w.source := by
  unfold World.recordCall
  split <;> rfl

theorem marks_recordCall (call : Transaction.Call) : (w.recordCall call).marks = w.marks := by
  unfold World.recordCall
  split <;> rfl

theorem startFinish_deed (hP : IsLenient P) (t : Terminal) (h : Handle) :
    Deed P ⟨w, s⟩ ⟨(w.startFinish t h).2, s⟩ := by
  have hsource : ((w.mark (.ending t h)).recordCall (.finish t)).source = w.source :=
    source_recordCall ..
  refine .ended t h ?_ (marks_recordCall ..) (hP _ rfl)
  show (Source.finish t h ((w.mark (.ending t h)).recordCall (.finish t)).source).2 = _
  rw [hsource]

theorem noteRollback_deeds (hP : IsLenient P) (h : Handle) (failure : Option String) :
    Deeds P ⟨w, s⟩ ⟨w.noteRollback h failure, s⟩ := by
  refine .aside [.ended .rollback h failure] ?_ ?_ (by simpa using ⟨rfl, hP _ rfl⟩)
  · cases failure <;> rfl
  · cases failure <;> rfl

theorem returnFrom_deeds (hP : IsLenient P) (u : UnitId) (h : Handle) (outcome : Outcome H) :
    Deeds P ⟨w, Layer.waitsAll layers⟩ (returnFrom w layers u h outcome).scene := by
  rw [returnFrom, scene_finish]
  exact .mark _ ⟨rfl, hP _ rfl⟩

theorem nextEffect_deeds (hP : IsLenient P) (held : List Handle) (u : UnitId) (h : Handle)
    (index : Nat) (effects : List (List (Step H))) (value : Value) :
    Deeds P ⟨w, Layer.waitsAll layers⟩
      (nextEffect w layers held u h index effects value).scene := by
  cases effects with
  | nil => exact (Deeds.letGo held).trans (returnFrom_deeds hP u h _)
  | cons effect rest =>
    rw [nextEffect, scene_exec]
    exact .mark _ ⟨rfl, hP _ rfl⟩

theorem settle_deeds (hP : IsLenient P) (failure : Option String) (call : Closing H) :
    Deeds P ⟨w, Layer.waitsAll layers⟩ (settle w layers failure call).scene := by
  cases call with
  | commit held u h effects value =>
    have hnoted : Deeds P ⟨w, Layer.waitsAll layers⟩ ⟨w.noteEnded .commit h failure, _⟩ :=
      .mark _ ⟨rfl, hP _ rfl⟩
    cases failure with
    | none => exact hnoted.trans (nextEffect_deeds hP held u h 0 effects value)
    | some reason => exact (hnoted.trans (Deeds.letGo held)).trans (returnFrom_deeds hP u h _)
  | rollback held u h outcome =>
    exact ((noteRollback_deeds hP h failure).trans (Deeds.letGo held)).trans
      (returnFrom_deeds hP u h outcome)
  | direct u t h value rest =>
    rw [settle, scene_exec]
    exact .aside [.ended t h failure] rfl rfl (by simpa using ⟨rfl, hP _ rfl⟩)

theorem startClosing_deeds (hP : IsLenient P) (call : Closing H) :
    Deeds P ⟨w, Layer.waitsAll layers⟩ (startClosing w layers call).scene := by
  refine .head (startFinish_deed hP call.terminal call.handle) ?_
  unfold startClosing
  dsimp only
  split
  · exact settle_deeds hP _ call
  · rw [scene_pause, Paused.waits, Multiset.zero_add]

/-- A scope whose work ends while its unit has a context makes the call that ends its
    transaction. -/
theorem exists_startClosing (layers : List (Layer H)) {u : UnitId}
    {c : Context (List (Step H))} (h : Handle) (outcome : Outcome H)
    (hx : w.context? u = some c) :
    ∃ w' call, closeScope w layers u h outcome = startClosing w' layers call ∧
      w'.source = w.source ∧ w'.now = w.now ∧
      w'.marks = .workEnded u h outcome (w.isCancelled u) :: w.marks := by
  cases outcome with
  | error e =>
    simp only [closeScope, hx]
    exact ⟨w.endWork u h (.error e), _, rfl, rfl, rfl, rfl⟩
  | ok value =>
    simp only [closeScope, hx]
    split
    · exact ⟨w.endWork u h (.ok value), _, rfl, rfl, rfl, rfl⟩
    · split
      · exact ⟨(w.endWork u h (.ok value)).record (.alert .nestedScopeFailed), _, rfl, rfl, rfl, rfl⟩
      · exact ⟨w.endWork u h (.ok value), _, rfl, rfl, rfl, rfl⟩

theorem closeScope_deeds (hP : IsLenient P) (u : UnitId) (h : Handle) (outcome : Outcome H)
    (hended : P (.workEnded u h outcome (w.isCancelled u))) :
    Deeds P ⟨w, Layer.waitsAll layers⟩ (closeScope w layers u h outcome).scene := by
  cases hx : w.context? u with
  | none =>
    simp only [closeScope, hx]
    have hstrayed : Deeds P ⟨w, Layer.waitsAll layers⟩ ⟨w.mark (.strayed u h), _⟩ :=
      .mark _ ⟨rfl, hP _ rfl⟩
    exact (hstrayed.trans (Deeds.letGo [h])).trans (returnFrom_deeds hP u h _)
  | some c =>
    obtain ⟨w', call, heq, hsource, -, hmarks⟩ := exists_startClosing layers h outcome hx
    rw [heq]
    exact (Deeds.aside [_] hsource hmarks (by simpa using ⟨rfl, hended⟩)).trans
      (startClosing_deeds hP call)

end Ending

/-! ## Beginning a scope -/

section Beginning

variable {P : Mark H → Prop} {w : World H} {layers : List (Layer H)}

/-- A scope that has its transaction opens the context; one that stood there lets go. -/
theorem openContext_deeds (hP : IsLenient P) {s : Multiset Acquiring} {before : Scene H} (u : UnitId)
    (h : Handle) (hopen : ∀ w' : World H, w'.source = w.source.retain h →
      w'.marks = .opened u h :: w.marks → Deed P before ⟨w', s⟩) :
    Deeds P before ⟨w.openContext u h, s⟩ := by
  have hset := hopen ({ w.mark (.opened u h) with source := w.source.retain h }.setContext u
    (some (.start h))) rfl rfl
  unfold World.openContext
  dsimp only
  split
  · exact .single hset
  · next c hx =>
    exact (Relation.ReflTransGen.single hset).trans
      ((Deeds.mark (.replaced u c.handle) ⟨rfl, hP _ rfl⟩).trans (Deeds.letGo [c.handle]))

theorem openScope_deeds (hP : IsLenient P) {before : Scene H} (u : UnitId) (h : Handle)
    (body : List (Step H)) (hopen : ∀ w' : World H, w'.source = w.source.retain h →
      w'.marks = .opened u h :: w.marks → Deed P before ⟨w', Layer.waitsAll layers⟩) :
    Deeds P before (openScope w layers u h body).scene := by
  rw [openScope, scene_exec]
  exact openContext_deeds hP u h hopen

theorem failUnserved_deeds (hP : IsLenient P) (u : UnitId) (wait : Acquiring)
    (e : TransactionError) :
    Deeds P ⟨w, wait ::ₘ Layer.waitsAll layers⟩
      (failUnserved (wait.withdraw w) layers u e).scene := by
  rw [failUnserved, failWith, scene_finish]
  have hmarks : (wait.withdraw w).marks = w.marks := by cases wait <;> rfl
  exact .single (.gaveUp wait (.unserved u e) rfl (congrArg _ hmarks) ⟨rfl, hP _ rfl⟩)

theorem tryAcquire_deeds (hP : IsLenient P) (u : UnitId) (body : List (Step H))
    (limit : Option (Nat × Nat)) (wait : Acquiring) :
    Deeds P ⟨w, wait ::ₘ Layer.waitsAll layers⟩
      (tryAcquire w layers u body limit wait).scene := by
  have hwait : Deeds P ⟨w, wait ::ₘ Layer.waitsAll layers⟩
      (⟨w, layers, .pause (.acquiring u body limit wait)⟩ : Machine H).scene := by
    rw [scene_pause, Paused.waits, Multiset.singleton_add]
  unfold tryAcquire
  split
  · next hready =>
    cases wait with
    | ticket number =>
      refine openScope_deeds hP u _ body fun w' hsource hmarks => ?_
      exact .claimed u hready hsource hmarks (hP _ rfl)
    | answer due reply =>
      cases reply with
      | ok h =>
        refine openScope_deeds hP u h body fun w' hsource hmarks => ?_
        exact .answered u hsource hmarks (hP _ rfl)
      | error reason =>
        exact failUnserved_deeds hP u (.answer due (.error reason)) (.beginFailed reason)
  · split
    · split
      · exact failUnserved_deeds hP u wait _
      · exact hwait
    · exact hwait

theorem beginOutermost_deeds (hP : IsLenient P) (u : UnitId) (body : List (Step H)) :
    Deeds P ⟨w, Layer.waitsAll layers⟩ (beginOutermost w layers u body).scene := by
  have hsource : ((w.mark (.requested u)).recordCall .begin).source = w.source :=
    source_recordCall ..
  have hafter : (w.request u).2.source = w.source.begin.2 := by
    show (Source.begin ((w.mark (.requested u)).recordCall .begin).source).2 = _
    rw [hsource]
  have hanswer : (w.request u).1 = w.source.begin.1 := by
    show (Source.begin ((w.mark (.requested u)).recordCall .begin).source).1 = _
    rw [hsource]
  have hmarks : (w.request u).2.marks = .requested u :: w.marks := marks_recordCall ..
  unfold beginOutermost
  dsimp only
  split
  · next h heq =>
    have hbegin : w.source.begin = (.opened h, (w.request u).2.source) :=
      Prod.ext (hanswer.symm.trans heq) hafter.symm
    refine openScope_deeds hP u h body fun w' hsource' hmarks' => ?_
    rw [hmarks] at hmarks'
    exact .opened u hbegin hsource' hmarks' ⟨hP _ rfl, hP _ rfl⟩
  · next number heq =>
    have hbegin : w.source.begin = (.queued number, (w.request u).2.source) :=
      Prod.ext (hanswer.symm.trans heq) hafter.symm
    exact .head (.queued u hbegin rfl hmarks (hP _ rfl)) (tryAcquire_deeds hP u body _ _)
  · next delay reply heq =>
    have hbegin : w.source.begin = (.answering delay reply, (w.request u).2.source) :=
      Prod.ext (hanswer.symm.trans heq) hafter.symm
    exact .head (.promised u _ hbegin rfl hmarks (hP _ rfl)) (tryAcquire_deeds hP u body _ _)

theorem enterScope_deeds (hP : IsLenient P) (u : UnitId) (body : List (Step H)) :
    Deeds P ⟨w, Layer.waitsAll layers⟩ (enterScope w layers u body).scene := by
  unfold enterScope
  split
  · rw [failWith, scene_finish]
    exact .mark _ ⟨rfl, hP _ rfl⟩
  · split
    · next c hx =>
      rw [scene_exec]
      exact .aside [.nestedBegun u c.handle] rfl rfl (by simpa using ⟨rfl, hP _ rfl⟩)
    · exact beginOutermost_deeds hP u body

end Beginning

/-! ## Dropping -/

section Dropping

variable {P : Mark H → Prop}

theorem marks_leaveNested (w : World H) (u : UnitId) (h : Handle) (outcome : Option (Outcome H)) :
    (w.leaveNested u h outcome).marks = .nestedEnded u h outcome :: w.marks := by
  unfold World.leaveNested
  dsimp only
  split <;> rfl

theorem leaveNested_deeds (w : World H) (s : Multiset Acquiring) (u : UnitId) (h : Handle)
    (outcome : Option (Outcome H)) (hP : P (.nestedEnded u h outcome)) :
    Deeds P ⟨w, s⟩ ⟨w.leaveNested u h outcome, s⟩ := by
  have hsource : (w.leaveNested u h outcome).source = w.source := by
    unfold World.leaveNested
    dsimp only
    split <;> rfl
  exact .aside [.nestedEnded u h outcome] hsource (marks_leaveNested w u h outcome)
    (by simpa using ⟨rfl, hP⟩)

theorem interrupt_deeds (hP : IsLenient P) (w : World H) (s : Multiset Acquiring) (u : UnitId)
    (h : Handle) : Deeds P ⟨w, s⟩ ⟨w.interrupt u h, s⟩ := by
  have hcut : Deeds P ⟨w, s⟩ ⟨w.mark (.interrupted u h), s⟩ := .mark _ ⟨rfl, hP _ rfl⟩
  unfold World.interrupt
  dsimp only
  split
  · exact hcut
  · next c hx =>
    refine hcut.trans ?_
    split
    · exact Deeds.silent rfl rfl
    · have hlost : Deeds P ⟨w.mark (.interrupted u h), s⟩
          ⟨(((w.mark (.interrupted u h)).setContext u none).mark (.lost c.handle)).record
            (.alert .scopeLost), s⟩ :=
        .aside [.lost c.handle] rfl rfl (by simpa using ⟨rfl, hP _ rfl⟩)
      exact hlost.trans (Deeds.letGo [c.handle])

/-- The guard of a frame that is left. -/
theorem Frame.unwind_deeds (hP : IsLenient P) (f : Frame H) (w : World H)
    (s : Multiset Acquiring) : Deeds P ⟨w, s⟩ ⟨f.unwind w, s⟩ := by
  cases f with
  | nested u h => exact leaveNested_deeds w s u h none (hP _ rfl)
  | outer u h => exact (interrupt_deeds hP w s u h).trans (Deeds.letGo [h])
  | effects held u h index rest value => exact .letGo held
  | after u how value rest => exact .refl
  | timeout u due value rest => exact .refl
  | catchPanic u value rest => exact .refl

mutual

/-- Dropping a suspended computation. -/
theorem Paused.abandon_deeds (hP : IsLenient P) (p : Paused H) (w : World H)
    (s : Multiset Acquiring) : Deeds P ⟨w, p.waits + s⟩ ⟨p.abandon w, s⟩ := by
  match p with
  | .sleeping _ => exact congrArg (Scene.mk w) (Multiset.zero_add s) ▸ .refl
  | .yielded => exact congrArg (Scene.mk w) (Multiset.zero_add s) ▸ .refl
  | .acquiring u _ _ wait =>
    have hmarks : (wait.withdraw w).marks = w.marks := by cases wait <;> rfl
    rw [Paused.waits, Multiset.singleton_add, Paused.abandon]
    exact .single (.gaveUp wait (.withdrawn u) rfl (congrArg _ hmarks) ⟨rfl, hP _ rfl⟩)
  | .closing _ _ call =>
    rw [Paused.waits, Multiset.zero_add, Paused.abandon]
    exact (Deeds.mark (.callDropped call.handle) ⟨rfl, hP _ rfl⟩).trans (Deeds.letGo call.held)
  | .under frame inner =>
    exact (inner.abandon_deeds hP w s).trans (frame.unwind_deeds hP (inner.abandon w) s)
  | .branches _ items => exact Paused.abandonAll_deeds hP items w s

theorem Paused.abandonAll_deeds (hP : IsLenient P) (items : List (Branch H (Paused H)))
    (w : World H) (s : Multiset Acquiring) :
    Deeds P ⟨w, Paused.waitsAll items + s⟩ ⟨Paused.abandonAll items w, s⟩ := by
  match items with
  | [] => exact congrArg (Scene.mk w) (Multiset.zero_add s) ▸ .refl
  | .paused p :: rest =>
    rw [Paused.waitsAll, Multiset.add_assoc]
    exact (p.abandon_deeds hP w _).trans (Paused.abandonAll_deeds hP rest (p.abandon w) s)
  | .idle _ :: rest => exact Paused.abandonAll_deeds hP rest w s
  | .finished :: rest => exact Paused.abandonAll_deeds hP rest w s

end

end Dropping

/-! ## Steps -/

section Steps

variable {P : Mark H → Prop} {w : World H} {layers : List (Layer H)}

theorem source_named (name : String) : (w.named name).2.source = w.source := by
  unfold World.named
  split <;> rfl

theorem marks_named (name : String) : (w.named name).2.marks = w.marks := by
  unfold World.named
  split <;> rfl

/-- A scope begins inside a frame. -/
theorem enterScope_deeds_in (hP : IsLenient P) (f : Frame H) (u : UnitId) (body : List (Step H)) :
    Deeds P ⟨w, Layer.waitsAll layers⟩ (enterScope w (.frame f :: layers) u body).scene := by
  rw [← waitsAll_frame layers f]
  exact enterScope_deeds hP u body

theorem execStep_deeds (hP : IsLenient P) (v : UnitId) (value : Value) (rest : List (Step H))
    (s : Step H) :
    Deeds P ⟨w, Layer.waitsAll layers⟩ (execStep w layers v value rest s).scene := by
  cases s with
  | perform action =>
    simp only [execStep]
    split
    · rw [scene_exec]
      exact .silent rfl rfl
    · rw [scene_finish]
      exact .silent rfl rfl
  | note v => exact scene_exec .. ▸ .silent rfl rfl
  | announce id => exact scene_exec .. ▸ .silent rfl rfl
  | probe what =>
    simp only [execStep, scene_exec]
    refine .silent rfl (marks_record ?_)
    cases what with
    | state => unfold probe; dsimp only; split <;> rfl
    | describe => rfl
    | transaction => rfl
    | token => rfl
    | source => rfl
  | give v => exact scene_finish .. ▸ .refl
  | fail fault => exact scene_finish .. ▸ .refl
  | panic => exact scene_unwind .. ▸ .refl
  | sleep ms =>
    simp only [execStep]
    split
    · exact scene_exec .. ▸ .refl
    · rw [scene_pause, Paused.waits, Multiset.zero_add]
      exact .refl
  | yield =>
    simp only [execStep]
    rw [scene_pause, Paused.waits, Multiset.zero_add]
    exact .refl
  | cancel unit =>
    cases unit with
    | none =>
      simp only [execStep, scene_exec]
      exact .aside [.cancelled v] rfl rfl (by simpa using ⟨rfl, hP _ rfl⟩)
    | some name =>
      simp only [execStep, scene_exec]
      exact .aside [.cancelled (w.named name).1] (source_named name)
        (congrArg _ (marks_named name)) (by simpa using ⟨rfl, hP _ rfl⟩)
  | armCommitFailure => exact scene_exec .. ▸ .single (.arm rfl rfl)
  | finish t =>
    simp only [execStep]
    split
    · exact scene_finish .. ▸ .refl
    · next c hx =>
      exact (Deeds.mark (.direct v c.handle) ⟨rfl, hP _ rfl⟩).trans (startClosing_deeds hP _)
  | scope place report body =>
    cases place with
    | here => exact enterScope_deeds_in hP _ v body
    | fresh =>
      have hadd : Deeds P ⟨w, Layer.waitsAll layers⟩ ⟨w.addUnit.2, _⟩ := .silent rfl rfl
      exact hadd.trans (enterScope_deeds_in hP _ _ body)
  | within place body =>
    cases place with
    | here => exact enterScope_deeds hP v body
    | fresh =>
      have hadd : Deeds P ⟨w, Layer.waitsAll layers⟩ ⟨w.addUnit.2, _⟩ := .silent rfl rfl
      exact hadd.trans (enterScope_deeds hP _ body)
  | timeout ms body => exact enterScope_deeds_in hP _ v body
  | catchPanic body => exact enterScope_deeds_in hP _ v body
  | defer strict effect =>
    simp only [execStep]
    split
    · next c hx =>
      rw [scene_exec]
      exact .aside [.deferred v c.handle effect] rfl rfl (by simpa using ⟨rfl, hP _ rfl⟩)
    · split
      · exact scene_finish .. ▸ .refl
      · exact scene_exec .. ▸ .silent rfl rfl
  | onUnit name body =>
    simp only [execStep]
    rw [scene_exec]
    exact .silent (source_named name) (marks_named name)
  | iterate count body =>
    cases count with
    | zero => exact scene_exec .. ▸ .refl
    | succ count => exact scene_exec .. ▸ .refl
  | join branches =>
    simp only [execStep]
    rw [scene_visit, Paused.waitsAll_map_idle, Paused.waitsAll, Multiset.zero_add,
      Multiset.zero_add]
    exact .refl

/-- The mark that tells of the end of the work in a frame. -/
def Frame.completion (w : World H) (outcome : Outcome H) : Frame H → Option (Mark H)
  | .nested u h => some (.nestedEnded u h (some (nestedOutcome w u outcome)))
  | .outer u h => some (.workEnded u h outcome (w.isCancelled u))
  | _ => none

theorem resume_deeds (hP : IsLenient P) (outcome : Outcome H) (f : Frame H)
    (hf : ∀ m, f.completion w outcome = some m → P m) :
    Deeds P ⟨w, Layer.waitsAll layers⟩ (resume w layers outcome f).scene := by
  cases f with
  | after u how value rest =>
    have hreport : Deeds P ⟨w, Layer.waitsAll layers⟩
        ⟨(report w outcome how).1, Layer.waitsAll layers⟩ := by
      cases how <;> cases outcome <;> exact .silent rfl rfl
    simp only [resume]
    split
    · rw [scene_finish]
      exact hreport
    · rw [scene_exec]
      exact hreport
  | nested u h =>
    rw [resume, scene_finish]
    exact leaveNested_deeds w _ u h _ (hf _ rfl)
  | outer u h => exact closeScope_deeds hP u h outcome (hf _ rfl)
  | effects held u h index rest value =>
    cases outcome with
    | ok v => exact nextEffect_deeds hP held u h (index + 1) rest value
    | error e =>
      have hreport : Deeds P ⟨w, Layer.waitsAll layers⟩
          ⟨w.record (.alert (.effectFailed index (e.message H))), _⟩ := .silent rfl rfl
      exact hreport.trans (nextEffect_deeds hP held u h (index + 1) rest value)
  | timeout u due value rest => exact scene_exec .. ▸ .silent rfl rfl
  | catchPanic u value rest => exact scene_exec .. ▸ .silent rfl rfl

theorem enter_deeds (hP : IsLenient P) (p : Paused H) :
    Deeds P ⟨w, p.waits + Layer.waitsAll layers⟩ (enter w layers p).scene := by
  cases p with
  | sleeping due =>
    simp only [enter]
    split
    · rw [scene_finish, Paused.waits, Multiset.zero_add]
    · exact .refl
  | yielded =>
    simp only [enter]
    rw [scene_finish, Paused.waits, Multiset.zero_add]
  | acquiring u body limit wait =>
    rw [Paused.waits, Multiset.singleton_add]
    simp only [enter]
    split
    · exact failUnserved_deeds hP u wait .cancelled
    · exact tryAcquire_deeds hP u body limit wait
  | closing due failure call =>
    simp only [enter]
    split
    · rw [Paused.waits, Multiset.zero_add]
      exact settle_deeds hP failure call
    · exact .refl
  | under frame inner =>
    simp only [enter]
    split
    · rw [failWith, scene_finish]
      exact inner.abandon_deeds hP w _
    · exact .refl
  | branches u items =>
    simp only [enter]
    rw [scene_visit, Paused.waitsAll, Multiset.zero_add, Paused.waits]

theorem suspend_deeds (hP : IsLenient P) (p : Paused H) (f : Frame H) :
    Deeds P ⟨w, p.waits + Layer.waitsAll layers⟩ (suspend w layers p f).scene := by
  cases f with
  | timeout u due value rest =>
    simp only [suspend]
    split
    · rw [scene_exec]
      exact (p.abandon_deeds hP w _).trans (Deeds.silent rfl rfl)
    · exact .refl
  | after u how value rest => exact .refl
  | nested u h => exact .refl
  | outer u h => exact .refl
  | effects held u h index rest value => exact .refl
  | catchPanic u value rest => exact .refl

theorem panicThrough_deeds (hP : IsLenient P) (f : Frame H) :
    Deeds P ⟨w, Layer.waitsAll layers⟩ (panicThrough w layers f).scene := by
  have hunwind := f.unwind_deeds hP w (Layer.waitsAll layers)
  cases f with
  | catchPanic u value rest => exact scene_exec .. ▸ .silent rfl rfl
  | after u how value rest => simpa only [panicThrough, scene_unwind] using hunwind
  | nested u h => simpa only [panicThrough, scene_unwind] using hunwind
  | outer u h => simpa only [panicThrough, scene_unwind] using hunwind
  | effects held u h index rest value => simpa only [panicThrough, scene_unwind] using hunwind
  | timeout u due value rest => simpa only [panicThrough, scene_unwind] using hunwind

/-- A step of a run does a few deeds. Work that ends in the step is marked so. -/
theorem Machine.step_deeds (hP : IsLenient P) (m : Machine H)
    (hended : ∀ f rest outcome mark, m.layers = .frame f :: rest → m.focus = .finish outcome →
      f.completion m.world outcome = some mark → P mark) :
    Deeds P m.scene m.step.scene := by
  obtain ⟨w, layers, focus⟩ := m
  cases focus with
  | enter p => exact enter_deeds hP p
  | exec v value steps =>
    rw [scene_exec]
    cases steps with
    | nil => exact scene_finish .. ▸ .refl
    | cons s rest => exact execStep_deeds hP v value rest s
  | finish outcome =>
    cases layers with
    | nil => exact .refl
    | cons l layers =>
      rw [scene_finish]
      cases l with
      | frame f =>
        rw [waitsAll_frame]
        exact resume_deeds hP outcome f fun mark => hended f layers outcome mark rfl rfl
      | joining v done todo =>
        simp only [Machine.step]
        rw [scene_visit, Paused.waitsAll]
        exact .silent rfl rfl
  | unwind =>
    cases layers with
    | nil => exact .refl
    | cons l layers =>
      rw [scene_unwind]
      cases l with
      | frame f =>
        rw [waitsAll_frame]
        exact panicThrough_deeds hP f
      | joining v done todo =>
        have hdrop := Paused.abandonAll_deeds hP (done.reverse ++ todo) w (Layer.waitsAll layers)
        rw [Paused.waitsAll_append, Paused.waitsAll_reverse] at hdrop
        simp only [Machine.step, scene_unwind]
        exact hdrop
  | pause p =>
    cases layers with
    | nil => exact .refl
    | cons l layers =>
      rw [scene_pause]
      cases l with
      | frame f =>
        rw [waitsAll_frame]
        exact suspend_deeds hP p f
      | joining v done todo =>
        simp only [Machine.step]
        rw [scene_visit, Paused.waitsAll, Layer.waitsAll]
        simp only [Multiset.add_assoc]
        exact .refl

end Steps

/-! ## The background -/

namespace World

variable {P : Mark H → Prop} {s : Multiset Acquiring}

theorem endCleanup_deeds (hP : IsLenient P) (h : Handle) (failure : Option String) (w : World H) :
    Deeds P ⟨w, s⟩ ⟨w.endCleanup h failure, s⟩ :=
  (noteRollback_deeds hP h failure).trans (Deeds.letGo [h])

theorem pollCleanup_deeds (hP : IsLenient P) (w : World H) (c : Cleanup) :
    Deeds P ⟨w, s⟩ ⟨w.pollCleanup c, s⟩ := by
  cases c with
  | fresh h =>
    refine .head (startFinish_deed hP .rollback h) ?_
    simp only [pollCleanup]
    split
    · exact endCleanup_deeds hP h _ _
    · exact Deeds.silent rfl rfl
  | waiting h due failure =>
    simp only [pollCleanup]
    split
    · exact endCleanup_deeds hP h failure w
    · exact .silent rfl rfl

/-- A look at the background does a few deeds. -/
theorem runBackground_deeds (hP : IsLenient P) (w : World H) :
    Deeds P ⟨w, s⟩ ⟨w.runBackground, s⟩ := by
  have hfold : ∀ (cs : List Cleanup) (w : World H), Deeds P ⟨w, s⟩ ⟨cs.foldl pollCleanup w, s⟩ := by
    intro cs
    induction cs with
    | nil => exact fun w => .refl
    | cons c rest ih => exact fun w => (pollCleanup_deeds hP w c).trans (ih _)
  have hstart : Deeds P ⟨w, s⟩ ⟨{ w with background := [] }, s⟩ := .silent rfl rfl
  exact hstart.trans (hfold w.background _)

end World

/-! ## Any marks -/

/-- Deeds that write down any marks. -/
abbrev AnyDeeds : Scene H → Scene H → Prop := Deeds fun _ => True

theorem Machine.step_anyDeeds (m : Machine H) : AnyDeeds m.scene m.step.scene :=
  m.step_deeds (fun _ _ => trivial) fun _ _ _ _ _ _ _ => trivial

theorem drop_anyDeeds (w : World H) (p : Paused H) :
    AnyDeeds (⟨w, [], .pause p⟩ : Machine H).scene
      (⟨p.abandon w, [], .unwind⟩ : Machine H).scene := by
  rw [scene_unwind, scene_pause]
  exact p.abandon_deeds (fun _ _ => trivial) w _

theorem background_anyDeeds (w : World H) (layers : List (Layer H)) (focus : Focus H) :
    AnyDeeds (⟨w, layers, focus⟩ : Machine H).scene
      (⟨w.runBackground, layers, focus⟩ : Machine H).scene :=
  w.runBackground_deeds fun _ _ => trivial

end BootEngine.Work
