import BootEngine.Proofs.Work.Contexts
import BootEngine.Proofs.Work.Deeds

/-!
# Work that stops

A run stands in the scopes around its focus; the work of each of them is under way, except that of
the innermost one when it has just been cut off. Once a unit has been cancelled, no further work of
it gets under way: a scope that begins is refused, and one that is looked at again is cut off. So
the work that is under way then is all that can still end with an outcome of its own; every other
scope of the unit ends with the cancellation.

Contents:
* `scopesAround`, `Machine.underWay`: the scopes of a unit that a run stands in.
* `ownEnds`: how often the work of a scope has ended otherwise than by a cancellation.
* `Machine.ownWork`, `Move.ownWork_le`: after the cancellation the one only turns into the other.
-/

namespace BootEngine.Work

open Transaction (Terminal Handle Source Context)

variable {H : Host} {T : UnitId → Prop}

/-! ## Scopes around the focus -/

/-- The frame is a scope of a unit. -/
def Frame.isScope (u : UnitId) : Frame H → Bool
  | .nested v _ => v == u
  | .outer v _ => v == u
  | _ => false

/-- The layer is a scope of a unit. -/
def Layer.isScope (u : UnitId) : Layer H → Bool
  | .frame f => f.isScope u
  | .joining .. => false

/-- The number of scopes of a unit that a run stands in. -/
def scopesAround (u : UnitId) (layers : List (Layer H)) : Nat := layers.countP fun l => l.isScope u

/-- The outcome is a cancellation. -/
def isCancellation : Outcome H → Bool
  | .error (.transaction .cancelled) => true
  | _ => false

/-- The number of scopes of a unit that a run stands in and whose work goes on. Work that ends with
    a cancellation goes on no more. -/
def Machine.underWay (u : UnitId) (m : Machine H) : Nat :=
  match m.focus with
  | .finish outcome =>
    if isCancellation outcome then scopesAround u m.layers.tail else scopesAround u m.layers
  | _ => scopesAround u m.layers

theorem eq_of_isCancellation {outcome : Outcome H} (h : isCancellation outcome = true) :
    outcome = .error (.transaction .cancelled) := by
  unfold isCancellation at h
  split at h
  · rfl
  · cases h

section Around

variable {u : UnitId} {w : World H} {layers : List (Layer H)}

theorem scopesAround_cons (l : Layer H) :
    scopesAround u (l :: layers) = scopesAround u layers + if l.isScope u then 1 else 0 :=
  List.countP_cons

theorem scopesAround_tail_le : scopesAround u layers.tail ≤ scopesAround u layers :=
  (List.tail_sublist layers).countP_le

theorem underWay_finish_le (outcome : Outcome H) :
    (⟨w, layers, .finish outcome⟩ : Machine H).underWay u ≤ scopesAround u layers := by
  show (if isCancellation outcome then _ else _) ≤ _
  split
  · exact scopesAround_tail_le
  · exact Nat.le_refl _

/-- Inside frames that are no scopes of the unit. -/
theorem scopesAround_frame {f : Frame H} (hf : f.isScope u = false) :
    scopesAround u (.frame f :: layers) = scopesAround u layers := by
  rw [scopesAround_cons, Layer.isScope, hf]
  rfl

/-- Nothing but the work of the outermost scope covers a nested scope. -/
theorem le_looseIn (ho : ∀ h, Layer.frame (.outer u h) ∉ layers) (k : Nat) :
    k ≤ looseIn u layers k := by
  induction layers generalizing k with
  | nil => exact Nat.le_refl k
  | cons l rest ih =>
    refine Nat.le_trans ?_ (ih (fun h hin => ho h (List.mem_cons_of_mem _ hin)) _)
    cases l with
    | joining v done todo => exact Nat.le_trans (Nat.le_add_right _ _) (Nat.le_add_right _ _)
    | frame f =>
      cases f with
      | nested v h =>
        show k ≤ if v = u then k + 1 else k
        split
        · exact Nat.le_succ k
        · exact Nat.le_refl k
      | outer v h =>
        have hv : v ≠ u := fun he => ho h (he ▸ List.mem_cons_self ..)
        show k ≤ if v = u then 0 else k
        rw [if_neg hv]
      | after v how value rest => exact Nat.le_refl k
      | effects held v h index rest value => exact Nat.le_refl k
      | timeout v due value rest => exact Nat.le_refl k
      | catchPanic v value rest => exact Nat.le_refl k

/-- Where every nested scope is covered, a run that is not inside the outermost scope is inside
    none. -/
theorem scopesAround_eq_zero {k : Nat} (hk : looseIn u layers k = 0)
    (ho : ∀ h, Layer.frame (.outer u h) ∉ layers) : scopesAround u layers = 0 := by
  induction layers generalizing k with
  | nil => rfl
  | cons l rest ih =>
    have hout : ∀ h, Layer.frame (.outer u h) ∉ rest := fun h hin =>
      ho h (List.mem_cons_of_mem _ hin)
    rw [scopesAround_cons, ih hk hout, if_neg]
    intro hl
    cases l with
    | joining v done todo => cases hl
    | frame f =>
      cases f with
      | nested v h =>
        have hexpose : looseIn u rest (if v = u then k + 1 else k) = 0 := hk
        rw [if_pos (beq_iff_eq.mp hl)] at hexpose
        exact Nat.not_succ_le_zero k (hexpose ▸ le_looseIn hout (k + 1))
      | outer v h => exact ho h (beq_iff_eq.mp hl ▸ List.mem_cons_self ..)
      | after v how value rest => cases hl
      | effects held v h index rest value => cases hl
      | timeout v due value rest => cases hl
      | catchPanic v value rest => cases hl

end Around

/-! ## No further work gets under way -/

section Functions

variable {u : UnitId} {w : World H} {layers : List (Layer H)}

theorem underWay_nextEffect_le (held : List Handle) (v : UnitId) (h : Handle) (index : Nat)
    (effects : List (List (Step H))) (value : Value) :
    (nextEffect w layers held v h index effects value).underWay u ≤ scopesAround u layers := by
  cases effects with
  | nil => exact underWay_finish_le _
  | cons effect rest => exact Nat.le_of_eq (scopesAround_frame rfl)

theorem underWay_settle_le (failure : Option String) (call : Closing H) :
    (settle w layers failure call).underWay u ≤ scopesAround u layers := by
  cases call with
  | commit held v h effects value =>
    cases failure with
    | none => exact underWay_nextEffect_le held v h 0 effects value
    | some reason => exact underWay_finish_le _
  | rollback held v h outcome => exact underWay_finish_le _
  | direct v t h value rest => exact Nat.le_refl _

theorem underWay_startClosing_le (call : Closing H) :
    (startClosing w layers call).underWay u ≤ scopesAround u layers := by
  unfold startClosing
  dsimp only
  split
  · exact underWay_settle_le _ call
  · exact Nat.le_refl _

theorem underWay_closeScope_le (v : UnitId) (h : Handle) (outcome : Outcome H) :
    (closeScope w layers v h outcome).underWay u ≤ scopesAround u layers := by
  cases hx : w.context? v with
  | none =>
    simp only [closeScope, hx]
    exact underWay_finish_le _
  | some c =>
    obtain ⟨w', call, heq, -⟩ := exists_startClosing layers h outcome hx
    rw [heq]
    exact underWay_startClosing_le call

theorem underWay_openScope_le {v : UnitId} (hv : v ≠ u) (h : Handle) (body : List (Step H)) :
    (openScope w layers v h body).underWay u ≤ scopesAround u layers :=
  Nat.le_of_eq (scopesAround_frame (beq_false_of_ne hv))

theorem underWay_tryAcquire_le {v : UnitId} (hv : v ≠ u) (body : List (Step H))
    (limit : Option (Nat × Nat)) (wait : Acquiring) :
    (tryAcquire w layers v body limit wait).underWay u ≤ scopesAround u layers := by
  unfold tryAcquire
  split
  · cases wait with
    | ticket number => exact underWay_openScope_le hv _ body
    | answer due reply =>
      cases reply with
      | ok h => exact underWay_openScope_le hv h body
      | error reason => exact underWay_finish_le _
  · split
    · split
      · exact underWay_finish_le _
      · exact Nat.le_refl _
    · exact Nat.le_refl _

/-- A scope of a cancelled unit is refused, and one of another unit does not count. -/
theorem underWay_enterScope_le (hc : w.isCancelled u = true) (v : UnitId) (body : List (Step H)) :
    (enterScope w layers v body).underWay u ≤ scopesAround u layers := by
  unfold enterScope
  split
  · exact underWay_finish_le _
  · next hv =>
    have hne : v ≠ u := fun he => hv (he ▸ hc)
    split
    · exact Nat.le_of_eq (scopesAround_frame (beq_false_of_ne hne))
    · unfold beginOutermost
      dsimp only
      split
      · exact underWay_openScope_le hne _ body
      · exact underWay_tryAcquire_le hne body _ _
      · exact underWay_tryAcquire_le hne body _ _

/-- A scope begins inside a frame that is no scope of the unit. -/
theorem underWay_enterScope_in_le (hc : w.isCancelled u = true) {f : Frame H}
    (hf : f.isScope u = false) (v : UnitId) (body : List (Step H)) :
    (enterScope w (.frame f :: layers) v body).underWay u ≤ scopesAround u layers :=
  (underWay_enterScope_le hc v body).trans_eq (scopesAround_frame hf)

theorem underWay_visit_le (v : UnitId) (done todo : List (Branch H (Paused H))) :
    (visit w layers v done todo).underWay u ≤ scopesAround u layers := by
  induction todo generalizing done with
  | nil =>
    unfold visit
    split
    · exact underWay_finish_le _
    · exact Nat.le_refl _
  | cons b rest ih =>
    cases b with
    | finished => exact ih (.finished :: done)
    | idle steps => exact Nat.le_refl _
    | paused p => exact Nat.le_refl _

theorem World.isCancelled_addUnit (w : World H) : w.addUnit.2.isCancelled u = w.isCancelled u :=
  congrFun (congrArg Ledger.cancelled (w.ledger_addUnit 0)) u

theorem underWay_execStep_le (hc : w.isCancelled u = true) (v : UnitId) (value : Value)
    (rest : List (Step H)) (s : Step H) :
    (execStep w layers v value rest s).underWay u ≤ scopesAround u layers := by
  have hfresh : w.addUnit.2.isCancelled u = true := w.isCancelled_addUnit.trans hc
  cases s with
  | perform action =>
    simp only [execStep]
    split
    · exact Nat.le_refl _
    · exact underWay_finish_le _
  | note v => exact Nat.le_refl _
  | announce id => exact Nat.le_refl _
  | probe what => exact Nat.le_refl _
  | give v => exact underWay_finish_le _
  | fail fault => exact underWay_finish_le _
  | panic => exact Nat.le_refl _
  | sleep ms =>
    simp only [execStep]
    split <;> exact Nat.le_refl _
  | yield => exact Nat.le_refl _
  | cancel unit => cases unit <;> exact Nat.le_refl _
  | armCommitFailure => exact Nat.le_refl _
  | finish t =>
    simp only [execStep]
    split
    · exact underWay_finish_le _
    · exact underWay_startClosing_le _
  | scope place report body =>
    cases place with
    | here => exact underWay_enterScope_in_le hc rfl v body
    | fresh => exact underWay_enterScope_in_le hfresh rfl _ body
  | within place body =>
    cases place with
    | here => exact underWay_enterScope_le hc v body
    | fresh => exact underWay_enterScope_le hfresh _ body
  | timeout ms body => exact underWay_enterScope_in_le hc rfl v body
  | catchPanic body => exact underWay_enterScope_in_le hc rfl v body
  | defer strict effect =>
    simp only [execStep]
    split
    · exact Nat.le_refl _
    · split
      · exact underWay_finish_le _
      · exact Nat.le_refl _
  | onUnit name body => exact Nat.le_refl _
  | iterate count body => cases count <;> exact Nat.le_refl _
  | join branches => exact (underWay_visit_le v [] _).trans_eq rfl

theorem underWay_resume_le (outcome : Outcome H) (f : Frame H) :
    (resume w layers outcome f).underWay u ≤ scopesAround u layers := by
  cases f with
  | after v how value rest =>
    simp only [resume]
    split
    · exact underWay_finish_le _
    · exact Nat.le_refl _
  | nested v h => exact underWay_finish_le _
  | outer v h => exact underWay_closeScope_le v h outcome
  | effects held v h index rest value =>
    cases outcome with
    | ok value' => exact underWay_nextEffect_le held v h (index + 1) rest value
    | error e => exact underWay_nextEffect_le held v h (index + 1) rest value
  | timeout v due value rest => exact Nat.le_refl _
  | catchPanic v value rest => exact Nat.le_refl _

/-- A scope of a cancelled unit that is looked at again is cut off. -/
theorem underWay_enter_le (hc : w.isCancelled u = true) (p : Paused H) :
    (enter w layers p).underWay u ≤ scopesAround u layers := by
  cases p with
  | sleeping due =>
    simp only [enter]
    split
    · exact underWay_finish_le _
    · exact Nat.le_refl _
  | yielded => exact underWay_finish_le _
  | acquiring v body limit wait =>
    simp only [enter]
    split
    · exact underWay_finish_le _
    · next hv =>
      have hne : v ≠ u := fun he => hv (he ▸ hc)
      exact underWay_tryAcquire_le hne body limit wait
  | closing due failure call =>
    simp only [enter]
    split
    · exact underWay_settle_le failure call
    · exact Nat.le_refl _
  | under frame inner =>
    simp only [enter]
    split
    · exact Nat.le_refl _
    · next hcut =>
      refine Nat.le_of_eq (scopesAround_frame ?_)
      cases frame with
      | nested v h => exact beq_false_of_ne fun he => hcut (he ▸ hc)
      | outer v h => exact beq_false_of_ne fun he => hcut (he ▸ hc)
      | _ => rfl
  | branches v items => exact underWay_visit_le v [] items

theorem underWay_suspend_le (p : Paused H) (f : Frame H) :
    (suspend w layers p f).underWay u ≤ scopesAround u layers := by
  cases f with
  | timeout v due value rest =>
    simp only [suspend]
    split <;> exact Nat.le_refl _
  | _ => exact Nat.le_refl _

theorem underWay_panicThrough_le (f : Frame H) :
    (panicThrough w layers f).underWay u ≤ scopesAround u layers := by
  cases f <;> exact Nat.le_refl _

end Functions

/-! ## Ends of work -/

/-- The mark tells that the work of a scope of a unit has run to its end with another outcome than a
    cancellation. -/
def Mark.isOwnEnd (u : UnitId) : Mark H → Bool
  | .workEnded v _ outcome _ => v == u && !isCancellation outcome
  | .nestedEnded v _ (some outcome) => v == u && !isCancellation outcome
  | _ => false

/-- How often the work of a scope of a unit has ended so. -/
def ownEnds (u : UnitId) (marks : List (Mark H)) : Nat := marks.countP fun m => m.isOwnEnd u

section Ends

variable {u : UnitId} {w : World H} {layers : List (Layer H)} {P : Mark H → Prop}

theorem ownEnds_cons (m : Mark H) (marks : List (Mark H)) :
    ownEnds u (m :: marks) = ownEnds u marks + if m.isOwnEnd u then 1 else 0 := List.countP_cons

theorem isLenient_isOwnEnd : IsLenient fun m : Mark H => m.isOwnEnd u = false := by
  intro m hm
  cases m with
  | workEnded v h outcome cancelled => cases hm
  | nestedEnded v h outcome =>
    cases outcome with
    | none => rfl
    | some o => cases hm
  | _ => rfl

/-- What deeds write down. -/
theorem Deeds.marks {before after : Scene H} (hdeeds : Deeds P before after) :
    ∃ ms, after.world.marks = ms ++ before.world.marks ∧ ∀ m ∈ ms, P m := by
  induction hdeeds with
  | refl => exact ⟨[], rfl, by simp⟩
  | tail _ hdeed ih =>
    obtain ⟨ms, hmarks, hms⟩ := ih
    obtain ⟨new, hnew, hP⟩ := hdeed.marks
    refine ⟨new ++ ms, by rw [hnew, hmarks, List.append_assoc], fun m hm => ?_⟩
    exact (List.mem_append.mp hm).elim (hP m) (hms m)

theorem Deeds.ownEnds {before after : Scene H}
    (hdeeds : Deeds (fun m : Mark H => m.isOwnEnd u = false) before after) :
    Work.ownEnds u after.world.marks = Work.ownEnds u before.world.marks := by
  obtain ⟨ms, hmarks, hms⟩ := hdeeds.marks
  have hnone : Work.ownEnds u ms = 0 :=
    List.countP_eq_zero.mpr fun m hm => by rw [hms m hm]; exact Bool.false_ne_true
  rw [hmarks]
  exact List.countP_append.trans ((congrArg (· + _) hnone).trans (Nat.zero_add _))

/-- The work of a scope ends in its frame. -/
theorem isScope_of_isOwnEnd {f : Frame H} {outcome : Outcome H} {m : Mark H}
    (hf : f.completion w outcome = some m) (hm : m.isOwnEnd u = true) : f.isScope u = true := by
  cases f with
  | nested v h =>
    obtain rfl := Option.some.inj hf
    exact (Bool.and_eq_true_iff.mp hm).1
  | outer v h =>
    obtain rfl := Option.some.inj hf
    exact (Bool.and_eq_true_iff.mp hm).1
  | _ => cases hf

/-- What the end of the work in a frame adds. -/
theorem ownEnds_resume (outcome : Outcome H) (f : Frame H) :
    ownEnds u (resume w layers outcome f).world.marks ≤
      ownEnds u ((f.completion w outcome).toList ++ w.marks) := by
  have hother : f.completion w outcome = none →
      ownEnds u (resume w layers outcome f).world.marks = ownEnds u w.marks := fun hf =>
    (resume_deeds isLenient_isOwnEnd outcome f fun m hm => nomatch hf.symm.trans hm).ownEnds
  cases f with
  | nested v h =>
    refine Nat.le_of_eq (congrArg (ownEnds u) ?_)
    exact marks_leaveNested ..
  | outer v h =>
    cases hx : w.context? v with
    | none =>
      simp only [resume, closeScope, hx]
      have hmarks : ownEnds u (returnFrom ((w.mark (.strayed v h)).letGo [h]) layers v h
          (.error (.transaction .noActiveTransaction))).world.marks = ownEnds u w.marks := by
        show ownEnds u (_ :: _ :: w.marks) = _
        rw [ownEnds_cons, ownEnds_cons]
        rfl
      rw [hmarks]
      exact (List.sublist_append_right _ _).countP_le
    | some c =>
      obtain ⟨w', call, heq, -, -, hmarks⟩ := exists_startClosing layers h outcome hx
      have hends : ownEnds u (startClosing w' layers call).world.marks = ownEnds u w'.marks :=
        (startClosing_deeds isLenient_isOwnEnd call).ownEnds
      rw [resume, heq]
      refine Nat.le_of_eq (hends.trans ?_)
      rw [show (Scene.mk w' (Layer.waitsAll layers)).world.marks = w'.marks from rfl, hmarks]
      rfl
  | after v how value rest => exact Nat.le_of_eq (hother rfl)
  | effects held v h index rest value => exact Nat.le_of_eq (hother rfl)
  | timeout v due value rest => exact Nat.le_of_eq (hother rfl)
  | catchPanic v value rest => exact Nat.le_of_eq (hother rfl)

end Ends

/-! ## The work that is under way ends -/

/-- What a run still stands in, and what has ended with an outcome of its own. -/
def Machine.ownWork (u : UnitId) (m : Machine H) : Nat := m.underWay u + ownEnds u m.world.marks

section Moves

variable {u : UnitId} {m m' : Machine H}

/-- The end of the work in a frame takes the frame away. -/
theorem ownWork_resume_le {w : World H} {layers : List (Layer H)} (outcome : Outcome H)
    (f : Frame H) :
    (resume w layers outcome f).ownWork u ≤
      (⟨w, .frame f :: layers, .finish outcome⟩ : Machine H).ownWork u := by
  have hway : (resume w layers outcome f).underWay u ≤ scopesAround u layers :=
    underWay_resume_le outcome f
  have hends : ownEnds u (resume w layers outcome f).world.marks ≤
      ownEnds u ((f.completion w outcome).toList ++ w.marks) := ownEnds_resume outcome f
  unfold Machine.ownWork
  by_cases hcancel : isCancellation outcome = true
  · have hbefore : (⟨w, .frame f :: layers, .finish outcome⟩ : Machine H).underWay u =
        scopesAround u layers := if_pos hcancel
    obtain rfl := eq_of_isCancellation hcancel
    have hnone : ownEnds u ((f.completion w (.error (.transaction .cancelled))).toList ++ w.marks) =
        ownEnds u w.marks := by
      cases f with
      | nested v h =>
        exact (ownEnds_cons _ _).trans (by simp [Mark.isOwnEnd, nestedOutcome, isCancellation])
      | outer v h => exact (ownEnds_cons _ _).trans (by simp [Mark.isOwnEnd, isCancellation])
      | _ => rfl
    dsimp only
    omega
  · have hbefore : (⟨w, .frame f :: layers, .finish outcome⟩ : Machine H).underWay u =
        scopesAround u layers + if f.isScope u then 1 else 0 :=
      (if_neg hcancel).trans (scopesAround_cons _)
    have hmark : ownEnds u ((f.completion w outcome).toList ++ w.marks) ≤
        ownEnds u w.marks + if f.isScope u then 1 else 0 := by
      cases hf : f.completion w outcome with
      | none => exact Nat.le_add_right _ _
      | some m =>
        refine (ownEnds_cons _ _).trans_le (Nat.add_le_add_left ?_ _)
        split
        · next hown => rw [if_pos (isScope_of_isOwnEnd hf hown)]
        · exact Nat.zero_le _
    dsimp only
    omega

/-- Work ends with an outcome of its own only where a computation ends in a frame. -/
theorem Machine.ownEnds_step (m : Machine H)
    (hm : ∀ f rest outcome, m.layers = .frame f :: rest → m.focus ≠ .finish outcome) :
    ownEnds u m.step.world.marks = ownEnds u m.world.marks :=
  (m.step_deeds isLenient_isOwnEnd fun f rest outcome _ hl hf _ =>
    absurd hf (hm f rest outcome hl)).ownEnds

/-- A step brings no further work of a cancelled unit under way. -/
theorem Machine.ownWork_step_le (m : Machine H) (hc : m.world.isCancelled u = true) :
    m.step.ownWork u ≤ m.ownWork u := by
  obtain ⟨w, layers, focus⟩ := m
  -- Elsewhere no work ends, and nothing but the layers counts.
  have hrest : (∀ f rest outcome, layers = .frame f :: rest → focus ≠ .finish outcome) →
      (⟨w, layers, focus⟩ : Machine H).step.underWay u ≤
        (⟨w, layers, focus⟩ : Machine H).underWay u →
      (⟨w, layers, focus⟩ : Machine H).step.ownWork u ≤
        (⟨w, layers, focus⟩ : Machine H).ownWork u := fun hm hway =>
    Nat.add_le_add hway (Nat.le_of_eq (Machine.ownEnds_step _ hm))
  have htail : ∀ (l : Layer H) (rest : List (Layer H)),
      scopesAround u rest ≤ scopesAround u (l :: rest) := fun l rest =>
    (List.sublist_cons_self l rest).countP_le
  cases focus with
  | finish outcome =>
    cases layers with
    | nil => exact Nat.le_refl _
    | cons l layers =>
      cases l with
      | frame f => exact ownWork_resume_le outcome f
      | joining v done todo =>
        refine hrest (fun _ _ _ hl => nomatch hl) ((underWay_visit_le v _ todo).trans ?_)
        show _ ≤ if isCancellation outcome then scopesAround u layers else _
        split
        · exact Nat.le_refl _
        · exact htail _ layers
  | enter p => exact hrest (fun _ _ _ _ hf => nomatch hf) (underWay_enter_le hc p)
  | exec v value steps =>
    refine hrest (fun _ _ _ _ hf => nomatch hf) ?_
    cases steps with
    | nil => exact underWay_finish_le _
    | cons s rest => exact underWay_execStep_le hc v value rest s
  | unwind =>
    refine hrest (fun _ _ _ _ hf => nomatch hf) ?_
    cases layers with
    | nil => exact Nat.le_refl _
    | cons l layers =>
      cases l with
      | frame f => exact (underWay_panicThrough_le f).trans (htail _ layers)
      | joining v done todo => exact htail _ layers
  | pause p =>
    refine hrest (fun _ _ _ _ hf => nomatch hf) ?_
    cases layers with
    | nil => exact Nat.le_refl _
    | cons l layers =>
      cases l with
      | frame f => exact (underWay_suspend_le p f).trans (htail _ layers)
      | joining v done todo => exact (underWay_visit_le v _ todo).trans (htail _ layers)

/-- No change of a run brings further work of a cancelled unit under way. -/
theorem Move.ownWork_le (hmove : Move T m m') (hc : m.world.isCancelled u = true) :
    m'.ownWork u ≤ m.ownWork u := by
  cases hmove with
  | step ho => exact m.ownWork_step_le hc
  | poll => exact Nat.le_refl _
  | @drop w p =>
    have hends := (p.abandon_deeds (isLenient_isOwnEnd (u := u)) w 0).ownEnds
    exact Nat.add_le_add (Nat.le_refl 0) (Nat.le_of_eq hends)
  | next v value steps =>
    exact Nat.add_le_add (Nat.zero_le _) (Nat.le_refl _)
  | restart v value steps => exact Nat.le_refl _
  | @background w layers focus =>
    have hends := (w.runBackground_deeds (s := 0) (isLenient_isOwnEnd (u := u))).ownEnds
    exact Nat.add_le_add_left (Nat.le_of_eq hends) _
  | elapse now => exact Nat.le_refl _
  | share source hs => exact Nat.le_refl _
  | cancel v => exact Nat.add_le_add_left (Nat.le_of_eq (ownEnds_cons _ _)) _

end Moves

end BootEngine.Work
