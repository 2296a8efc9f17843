import BootEngine.Proofs.Work.Stopping

/-!
# Cancelled units

The cancellation of a unit takes place when it is called for, and is final. From then on no scope of
the unit asks for a transaction, none receives one, and none calls for a commit. A run that is not
inside the work of the outermost scope at that moment never executes a step of this work again: when
it comes back, it finds the scope cut off. Scopes that begin are refused, scopes that wait for a
transaction fail, and scopes whose work goes on end with an error, in no case well; the transaction
is rolled back. Only a scope whose commit had been called before ends as its commit is answered.

Contents:
* `Mark.IsFinal`, `Reached.final`: what is written down about a cancelled unit.
* `stoppedOutcome`: the outcome of a scope that is stopped.
* `CancelTakes`: who calls for a cancellation has it at once.
* `CancelHolds`, `cancel_holds`: what is told of a unit from its cancellation on.
-/

namespace BootEngine.Work

open Transaction (Terminal Handle Source Context)

variable {H : Host} {T D : UnitId → Prop}

/-! ## What is written down -/

/-- What may be written down once a unit has been cancelled: none of its scopes asks for a
    transaction or receives one, those that wait fail with the cancellation, work ends as that of a
    cancelled unit, and no commit is called for. -/
def Mark.IsFinal (u : UnitId) (marks : List (Mark H)) : Mark H → Prop
  | .requested v => v ≠ u
  | .opened v _ => v ≠ u
  | .unserved v e => v = u → e = .cancelled
  | .workEnded v _ _ stopped => v = u → stopped = true
  | .ending .commit h => ∃ v, v ≠ u ∧ (account h marks).opener = some v
  | _ => True

section Acts

variable {u : UnitId} {l l' : Ledger H}

/-- What has been written down stays right. -/
theorem Mark.IsFinal.mono {m : Mark H} {older marks : List (Mark H)} (hm : m.IsFinal u older)
    (ht : Timely T marks) (hs : older <:+ marks) : m.IsFinal u marks := by
  cases m with
  | ending t h =>
    cases t with
    | commit =>
      obtain ⟨v, hv, ho⟩ := hm
      exact ⟨v, hv, ht.opener hs ho⟩
    | rollback => exact hm
  | _ => exact hm

/-- A scope of a cancelled unit is rolled back after its work. -/
theorem terminal_ofWork (v : UnitId) (h : Handle) (c : Context (List (Step H)))
    (outcome : Outcome H) : (Item.ofWork v h c true outcome).terminal = .rollback := by
  cases outcome <;> rfl

/-- What an act writes down about a cancelled unit whose transactions programs do not end
    themselves. -/
theorem Act.final (hact : Act T D l l') (hs : Sound l) (hD : D u) (hc : l.cancelled u = true) :
    l'.cancelled u = true ∧
      ∃ ms, l'.marks = ms ++ l.marks ∧ ∀ m ∈ ms, m.IsFinal u l.marks := by
  obtain ⟨ms, hmarks, -, -, hcancelled⟩ := hact.marks
  refine ⟨?_, ?_⟩
  · rcases hcancelled with ⟨v, -, hx⟩ | ⟨-, hx⟩
    · rw [hx, Function.update_apply, hc, ite_self]
    · rw [hx, hc]
  · cases hact with
    | advance hn => exact ⟨[], rfl, by simp⟩
    | @request v p n hcv hx hp hT =>
      refine ⟨[.requested v], rfl, List.forall_mem_singleton.mpr fun he => ?_⟩
      rw [he, hc] at hcv
      cases hcv
    | @unserved v p s e hi he =>
      refine ⟨[.unserved v e], rfl, List.forall_mem_singleton.mpr fun hv => ?_⟩
      subst hv
      rw [hc] at he
      cases e with
      | cancelled => rfl
      | _ => cases he
    | @serve v p h n s hi hcv hp =>
      have hv : v ≠ u := fun he => by
        rw [he, hc] at hcv
        cases hcv
      obtain ⟨ms, hmarks, ⟨-, rfl⟩ | ⟨c, -, rfl⟩⟩ := l.marks_openContext v h
      · exact ⟨[.opened v h], hmarks, List.forall_mem_singleton.mpr hv⟩
      · exact ⟨[.replaced v c.handle, .opened v h], hmarks, by simpa [Mark.IsFinal] using hv⟩
    | @close v h c s outcome hi hx hT =>
      refine ⟨[.ending _ h, .workEnded v h outcome (l.cancelled v)], rfl, ?_⟩
      by_cases hv : v = u
      · subst hv
        rw [hc, terminal_ofWork]
        simp [Mark.IsFinal]
      · have ho := hs.opener_of_eq_cons hi rfl
        refine List.forall_mem_cons.mpr ⟨?_, List.forall_mem_singleton.mpr fun he => absurd he hv⟩
        cases (Item.ofWork v h c (l.cancelled v) outcome).terminal with
        | commit => exact ⟨v, hv, ho⟩
        | rollback => trivial
    | @direct v c t hx hDv =>
      have hv : v ≠ u := fun he => hDv (he ▸ hD)
      refine ⟨[.ending t c.handle, .direct v c.handle], rfl, ?_⟩
      refine List.forall_mem_cons.mpr ⟨?_, List.forall_mem_singleton.mpr trivial⟩
      cases t with
      | commit => exact ⟨v, hv, hs.contexts v c hx⟩
      | rollback => trivial
    | @interrupt v h s hi hT =>
      obtain ⟨ms, hmarks, rfl | ⟨c, -, -, rfl⟩⟩ := l.marks_interrupt v h
      · exact ⟨[.interrupted v h], hmarks, by simp [Mark.IsFinal]⟩
      · exact ⟨[.lost c.handle, .interrupted v h], hmarks, by simp [Mark.IsFinal]⟩
    | @leaveNested v h s outcome hi =>
      exact ⟨[.nestedEnded v h outcome], l.marks_leaveNested v h outcome, by simp [Mark.IsFinal]⟩
    | stray hi hx => exact ⟨[_, _], rfl, by simp [Mark.IsFinal]⟩
    | commitFailed reason hi => exact ⟨[_, _], rfl, by simp [Mark.IsFinal]⟩
    | rolledBack failure hi => exact ⟨[_, _], rfl, by simp [Mark.IsFinal]⟩
    | dropEffects hi => exact ⟨[], rfl, by simp⟩
    | _ => exact ⟨[_], rfl, by simp [Mark.IsFinal]⟩

end Acts

section Runs

variable {m m' : Machine H} {u : UnitId} {h : Handle}

/-- Acts one after another write down what is final. -/
theorem Acts.final {l l' : Ledger H} (hacts : Acts T T l l') (hl : Invariant T l) (hh : History T l)
    (hu : T u) (hc : l.cancelled u = true) :
    l'.cancelled u = true ∧
      ∃ ms, l'.marks = ms ++ l.marks ∧ ∀ m ∈ ms, m.IsFinal u l'.marks := by
  induction hacts with
  | refl => exact ⟨hc, [], rfl, by simp⟩
  | tail hbefore hact ih =>
    obtain ⟨hcancelled, ms, hmarks, hms⟩ := ih
    obtain ⟨hinvariant, hhistory⟩ := History.acts hl hh hbefore
    obtain ⟨hafter, new, hnew, hfinal⟩ := hact.final hinvariant.sound hu hcancelled
    have htimely := (hhistory.act hinvariant hact).timely
    have hsuffix := hnew ▸ List.suffix_append new _
    refine ⟨hafter, new ++ ms, by rw [hnew, hmarks, List.append_assoc], fun m hm => ?_⟩
    rcases List.mem_append.mp hm with hm | hm
    · exact (hfinal m hm).mono htimely hsuffix
    · exact (hms m hm).mono htimely hsuffix

/-- The outcome of a nested scope is not written down as a good one. -/
def Mark.IsNoSuccess (u : UnitId) (m : Mark H) : Prop :=
  ∀ h value, m ≠ .nestedEnded u h (some (.ok value))

theorem isLenient_isNoSuccess : IsLenient fun m : Mark H => m.IsNoSuccess u := by
  rintro m hm h value rfl
  cases hm

/-- No nested scope of a cancelled unit ends well. -/
theorem Move.isNoSuccess (hmove : Move T m m') (hc : m.world.isCancelled u = true) :
    ∃ ms, m'.world.marks = ms ++ m.world.marks ∧ ∀ mark ∈ ms, mark.IsNoSuccess u := by
  cases hmove with
  | step ho =>
    refine (m.step_deeds isLenient_isNoSuccess fun f rest outcome mark _ _ hf => ?_).marks
    rintro h value rfl
    cases f with
    | nested v k =>
      simp only [Frame.completion, Option.some.injEq, Mark.nestedEnded.injEq] at hf
      obtain ⟨rfl, -, hf⟩ := hf
      unfold nestedOutcome at hf
      split at hf
      · rw [if_pos hc] at hf
        cases hf
      · cases hf
    | outer v k => cases hf
    | _ => cases hf
  | poll => exact ⟨[], rfl, by simp⟩
  | @drop w p => exact (p.abandon_deeds isLenient_isNoSuccess w 0).marks
  | next v value steps => exact ⟨[], rfl, by simp⟩
  | restart v value steps => exact ⟨[], rfl, by simp⟩
  | @background w layers focus => exact (w.runBackground_deeds (s := 0) isLenient_isNoSuccess).marks
  | elapse now => exact ⟨[], rfl, by simp⟩
  | share source hs => exact ⟨[], rfl, by simp⟩
  | cancel v => exact ⟨[.cancelled v], rfl, by simp [Mark.IsNoSuccess]⟩

/-- What is written down in a run after a unit has been cancelled, and what is under way in it. -/
theorem Reached.final (hr : Reached T m) (hu : T u) (hc : m.world.isCancelled u = true)
    (hrun : Run T m m') :
    m'.world.isCancelled u = true ∧ m'.ownWork u ≤ m.ownWork u ∧
      ∃ news, m'.world.marks = news ++ m.world.marks ∧
        ∀ mark ∈ news, mark.IsFinal u m'.world.marks ∧ mark.IsNoSuccess u := by
  induction hrun with
  | refl => exact ⟨hc, Nat.le_refl _, [], rfl, by simp⟩
  | @tail mid after hbefore hmove ih =>
    obtain ⟨hcancelled, hwork, news, hmarks, hnews⟩ := ih
    have hkeeps := (hr.run hbefore).keeps
    have htimely := (hr.run (hbefore.tail hmove)).timely
    obtain ⟨hafter, new, hnew, hfinal⟩ :=
      (hkeeps.acts_of_move hmove).1.final hkeeps.invariant hkeeps.history hu hcancelled
    obtain ⟨new', hnew', hsuccess⟩ := hmove.isNoSuccess hcancelled
    obtain rfl : new' = new := List.append_cancel_right (hnew'.symm.trans hnew)
    have hsuffix : mid.world.marks <:+ after.world.marks := hnew' ▸ List.suffix_append new' _
    refine ⟨hafter, (hmove.ownWork_le hcancelled).trans hwork, new' ++ news,
      by rw [hnew', hmarks, List.append_assoc], fun mark hin => ?_⟩
    rcases List.mem_append.mp hin with hin | hin
    · exact ⟨hfinal mark hin, hsuccess mark hin⟩
    · exact ⟨(hnews mark hin).1.mono htimely hsuffix, (hnews mark hin).2⟩

end Runs

/-! ## Work that is stopped -/

section Stopped

variable {m m' : Machine H} {u : UnitId} {h : Handle} {news : List (Mark H)}

/-- A call has been made if that has been written down. -/
theorem mem_calls_iff {t : Terminal} {marks : List (Mark H)} :
    t ∈ (account h marks).course.calls ↔ .ending t h ∈ marks := by
  rw [← flag_iff (F := fun c : Course H => decide (t ∈ c.calls)) rfl rfl (fun c => ?_)
    fun m c hh hm => ?_, decide_eq_true_iff]
  · exact decide_eq_true (List.mem_append_right _ (List.mem_singleton_self t))
  · cases m with
    | ending t' h' =>
      have hne : t ≠ t' := fun he => hm (he ▸ congrArg (Mark.ending t') (Option.some.inj hh))
      simp [Course.note, hne]
    | _ => rfl

theorem underWay_le (m : Machine H) : m.underWay u ≤ scopesAround u m.layers := by
  obtain ⟨w, layers, focus⟩ := m
  cases focus with
  | finish outcome => exact underWay_finish_le outcome
  | _ => exact Nat.le_refl _

/-- A run that is not inside the work of the outermost scope has no work of the unit under way. -/
theorem Reached.underWay_eq_zero (hr : Reached T m) (hu : T u) (ho : ¬ m.IsInside u) :
    m.underWay u = 0 := by
  have hnone := scopesAround_eq_zero (hr.keeps.covered u hu) fun h hin => ho ⟨h, hin⟩
  exact Nat.le_zero.mp (hnone ▸ underWay_le m)

/-- Where no work is under way, a run inside the outermost scope has just cut it off. -/
theorem exists_cutOff (hw : m.underWay u = 0) (hin : m.IsInside u) :
    ∃ h rest, m.layers = .frame (.outer u h) :: rest ∧
      m.focus = .finish (.error (.transaction .cancelled)) := by
  obtain ⟨w, layers, focus⟩ := m
  obtain ⟨h, hmem⟩ := hin
  have hscope : ∀ {rest : List (Layer H)}, .frame (.outer u h) ∈ rest → scopesAround u rest ≠ 0 :=
    fun hin => Nat.ne_of_gt (List.countP_pos_iff.mpr ⟨_, hin, beq_self_eq_true u⟩)
  cases focus with
  | finish outcome =>
    change (if isCancellation outcome then scopesAround u layers.tail else scopesAround u layers) = 0
      at hw
    split at hw
    · next hcancel =>
      obtain rfl := eq_of_isCancellation hcancel
      cases layers with
      | nil => exact absurd hmem List.not_mem_nil
      | cons l rest =>
        rcases List.mem_cons.mp hmem with rfl | hrest
        · exact ⟨h, rest, rfl, rfl⟩
        · exact absurd hw (hscope hrest)
    · exact absurd hw (hscope hmem)
  | _ => exact absurd hw (hscope hmem)

/-- The outcome of a scope that is stopped, after its work. -/
def stoppedOutcome : Outcome H → Outcome H
  | .ok _ => .error (.transaction .cancelled)
  | .error e => .error e

variable (hr : Reached T m) (hr' : Reached T m') (hu : T u) (hin : Item.outer u h ∈ m.items)
  (hmarks : m'.world.marks = news ++ m.world.marks)
  (hnews : ∀ mark ∈ news, mark.IsFinal u m'.world.marks)

include hr hr' hin hmarks

/-- The scope is still known to have opened its transaction. -/
theorem opener_of_stopped : (account h m'.world.marks).opener = some u := by
  have hopen : (account h m.world.marks).opener = some u :=
    hr.keeps.invariant.sound.items _ hin h rfl
  exact hr'.timely.opener (hmarks ▸ List.suffix_append news _) hopen

include hu hnews

/-- The work of a scope that went on when its unit was cancelled ends as that of a cancelled
    unit. -/
theorem workEnded_of_stopped {work : Outcome H} {stopped : Bool}
    (hwork : (account h m'.world.marks).course.work = some (some (work, stopped))) :
    stopped = true ∧ .workEnded u h work stopped ∈ news := by
  obtain ⟨v, older, hs⟩ := exists_workEnded hwork
  have hopener := opener_of_stopped hr hr' hin hmarks
  have hv := hr'.timely.opener ((List.suffix_cons _ _).trans hs) (hr'.timely.at hs).1
  obtain rfl : v = u := Option.some.inj (hv.symm.trans hopener)
  have hmem : .workEnded v h work stopped ∈ news ++ m.world.marks :=
    hmarks ▸ hs.mem (List.mem_cons_self ..)
  have hnew := (List.mem_append.mp hmem).resolve_right fun hold =>
    (((hr.nested.nested v hu).holds.goes h).mp hin).2 _ hold ⟨rfl, rfl⟩
  exact ⟨hnews _ hnew rfl, hnew⟩

/-- It does not end as work that may be committed. -/
theorem work_ne_of_stopped (work : Outcome H) :
    (account h m'.world.marks).course.work ≠ some (some (work, false)) := fun hwork =>
  Bool.false_ne_true (workEnded_of_stopped hr hr' hu hin hmarks hnews hwork).1

/-- Its scope calls for no commit. -/
theorem commit_not_mem_of_stopped : .commit ∉ (account h m'.world.marks).course.calls := by
  have hopener := opener_of_stopped hr hr' hin hmarks
  rw [mem_calls_iff, hmarks, List.mem_append]
  rintro (hnew | hold)
  · obtain ⟨v, hv, ho⟩ := hnews _ hnew
    exact hv (Option.some.inj (ho.symm.trans hopener))
  · have hopen : (account h m.world.marks).opener = some u :=
      hr.keeps.invariant.sound.items _ hin h rfl
    obtain ⟨s, hs⟩ := Multiset.exists_cons_of_mem hin
    obtain ⟨-, hfits⟩ := (hr.lives hu).fits_of_owns hs (beq_self_eq_true h) hopen
    have hcourse : (account h m.world.marks).course = {} := hfits.of_outer.1
    have hcalls := mem_calls_iff.mpr hold
    rw [hcourse] at hcalls
    exact absurd hcalls List.not_mem_nil

/-- If it returns, its transaction has been rolled back, and it does not return a value. -/
theorem returned_of_stopped {r : Outcome H}
    (hret : (account h m'.world.marks).course.returned = some r) :
    ∃ work failure, (account h m'.world.marks).course =
        { work := some (some (work, true)), calls := [.rollback]
          answers := [(.rollback, failure)], returned := some r } ∧
      r = stoppedOutcome work ∧ .workEnded u h work true ∈ news := by
  have hfits := (hr'.lives hu).fits h (opener_of_stopped hr hr' hin hmarks)
  obtain ⟨-, hover⟩ := hfits.over_of_returned (ne_of_eq_of_ne hret (Option.some_ne_none r))
  have hne := work_ne_of_stopped hr hr' hu hin hmarks hnews
  rcases hover.of_returned (hr'.orderly hu).unmixed hret with ⟨v, reason, -, hcourse, -⟩ |
    ⟨v, -, hcourse, -⟩ | ⟨work, stopped, failure, hrefusal, hcourse⟩
  · exact absurd (congrArg Course.work hcourse) (hne (.ok v))
  · exact absurd (congrArg Course.work hcourse) (hne (.ok v))
  · obtain ⟨rfl, hended⟩ :=
      workEnded_of_stopped hr hr' hu hin hmarks hnews (congrArg Course.work hcourse)
    refine ⟨work, failure, hcourse, ?_, hended⟩
    cases work with
    | error e => exact hrefusal
    | ok v => exact (hrefusal.resolve_right fun hn => nomatch hn.1).2

/-- When its work goes on no more, the rollback has been called for, or waits in the background, or
    there was nothing to run it. -/
theorem rolledBack_of_stopped : .outer u h ∈ m'.items ∨
    (account h m'.world.marks).course.calls = [.rollback] ∨
    .fresh h ∈ m'.world.background ∨ .lost h ∈ m'.world.marks := by
  have hfits := (hr'.lives hu).fits h (opener_of_stopped hr hr' hin hmarks)
  have hne := work_ne_of_stopped hr hr' hu hin hmarks hnews
  have hcommit := commit_not_mem_of_stopped hr hr' hu hin hmarks hnews
  have hcalls : ∀ {c : Course H}, (account h m'.world.marks).course = c →
      c.calls = [.rollback] → (account h m'.world.marks).course.calls = [.rollback] :=
    fun hc hback => (congrArg Course.calls hc).trans hback
  cases hfits with
  | working hk hc hx =>
    refine .inl (mem_items_of_keepers (h := h) (l := m'.ledger) ?_)
    rw [hk]
    exact Multiset.mem_singleton_self _
  | committing hk hf hc => exact absurd (congrArg Course.work hc) (hne _)
  | rollingBack hk hrefusal hc => exact .inr (.inl (hcalls hc rfl))
  | serving hk hf hc => exact absurd (congrArg Course.work hc) (hne _)
  | waiting hk hc =>
    have hback : Cleanup.fresh h ∈ (m'.world.background : Multiset Cleanup) := by
      refine mem_background_of_keepers (h := h) (l := m'.ledger) ?_
      rw [hk]
      exact Multiset.mem_singleton_self _
    exact .inr (.inr (.inl hback))
  | cleaning hk hc => exact .inr (.inl (hcalls hc rfl))
  | finished hk ho =>
    cases ho with
    | commitFailed hf hc => exact absurd (congrArg Course.work hc) (hne _)
    | served hf hc => exact absurd (congrArg Course.work hc) (hne _)
    | cut hf hc => exact absurd (congrArg Course.work hc) (hne _)
    | rolledBack hrefusal hc => exact .inr (.inl (hcalls hc rfl))
    | @dropped o cancelled t hf hc =>
      cases t with
      | commit =>
        have hcalled : (account h m'.world.marks).course.calls = [.commit] :=
          congrArg Course.calls hc
        rw [hcalled] at hcommit
        exact absurd (List.mem_singleton_self _) hcommit
      | rollback => exact .inr (.inl (hcalls hc rfl))
    | cleaned hc => exact .inr (.inl (hcalls hc rfl))
    | lost hc => exact .inr (.inr (.inr (lost_iff.mp (congrArg Course.lost hc))))
    | strayed hx hc => exact absurd hx (hr'.orderly hu).unmixed

end Stopped

/-- A scope whose commit had been called for ends as the commit is answered. -/
theorem Reached.returned_of_commit {m : Machine H} {u : UnitId} {h : Handle} {r : Outcome H}
    (hr : Reached T m) (hu : T u) (ho : (account h m.world.marks).opener = some u)
    (hcommit : .ending .commit h ∈ m.world.marks)
    (hret : (account h m.world.marks).course.returned = some r) :
    ∃ value failure, (account h m.world.marks).course.answers = [(.commit, failure)] ∧
      r = outcomeAfter false false failure (.ok value) := by
  have hfits := (hr.lives hu).fits h ho
  obtain ⟨-, hover⟩ := hfits.over_of_returned (ne_of_eq_of_ne hret (Option.some_ne_none r))
  have hcalls := mem_calls_iff.mpr hcommit
  rcases hover.of_returned (hr.orderly hu).unmixed hret with ⟨v, reason, -, hcourse, rfl⟩ |
    ⟨v, -, hcourse, rfl⟩ | ⟨work, stopped, failure, -, hcourse⟩
  · exact ⟨v, some reason, congrArg Course.answers hcourse, rfl⟩
  · exact ⟨v, none, congrArg Course.answers hcourse, rfl⟩
  · have hback : (account h m.world.marks).course.calls = [.rollback] :=
      congrArg Course.calls hcourse
    rw [hback] at hcalls
    cases List.mem_singleton.mp hcalls

/-! ## Calling for a cancellation -/

/-- The unit that the next step of a run cancels. -/
def Machine.cancels? (m : Machine H) : Option UnitId :=
  match m.focus with
  | .exec u _ (.cancel none :: _) => some u
  | .exec _ _ (.cancel (some name) :: _) => some (m.world.named name).1
  | _ => none

/-- Whoever calls for the cancellation of a unit, somebody from outside or a program, has it
    cancelled at once. -/
def CancelTakes (u : UnitId) (H : Host) : Prop :=
  ∀ m : Machine H, (m.cancelled u).world.isCancelled u = true ∧
    (m.cancels? = some u → m.step.world.isCancelled u = true)

theorem cancelTakes (u : UnitId) : CancelTakes u H := by
  refine fun m => ⟨World.isCancelled_cancel .., fun hu => ?_⟩
  obtain ⟨w, layers, focus⟩ := m
  simp only [Machine.cancels?] at hu
  split at hu
  · obtain rfl := Option.some.inj hu
    exact World.isCancelled_cancel ..
  · obtain rfl := Option.some.inj hu
    exact World.isCancelled_cancel ..
  · cases hu

/-! ## Scopes that are refused or cut off -/

section Refused

variable {u : UnitId} {m : Machine H}

/-- A unit that has been cancelled has been made. -/
theorem World.lt_of_isCancelled {w : World H} (hc : w.isCancelled u = true) :
    u < w.units.length := by
  by_contra hu
  have hnone : w.isCancelled u = false := by
    rw [World.isCancelled, World.unit, List.getElem?_eq_none (Nat.le_of_not_lt hu)]
    rfl
  rw [hnone] at hc
  cases hc

/-- A scope of a cancelled unit is refused: nothing but that is written down, and none of its work
    is executed. -/
theorem Machine.step_of_opensOn (hc : m.world.isCancelled u = true) (ho : m.opensOn? = some u) :
    ∃ layers, m.step = failWith (m.world.mark (.refused u)) layers .cancelled ∧
      Layer.itemsAll layers = Layer.itemsAll m.layers := by
  obtain ⟨w, layers, focus⟩ := m
  have hrefused : ∀ (layers : List (Layer H)) (body : List (Step H)),
      enterScope w layers u body = failWith (w.mark (.refused u)) layers .cancelled :=
    fun layers body => if_pos hc
  have hmade : w.units.length ≠ u := fun he => Nat.lt_irrefl _ (he ▸ World.lt_of_isCancelled hc)
  cases focus with
  | exec v value steps =>
    cases steps with
    | nil => cases ho
    | cons s rest =>
      cases s with
      | scope place report body =>
        cases place with
        | here =>
          obtain rfl : v = u := Option.some.inj ho
          exact ⟨_, hrefused _ body, itemsAll_of_items_eq_zero rfl⟩
        | fresh => exact absurd (Option.some.inj ho) hmade
      | within place body =>
        cases place with
        | here =>
          obtain rfl : v = u := Option.some.inj ho
          exact ⟨_, hrefused _ body, rfl⟩
        | fresh => exact absurd (Option.some.inj ho) hmade
      | timeout ms body =>
        obtain rfl : v = u := Option.some.inj ho
        exact ⟨_, hrefused _ body, itemsAll_of_items_eq_zero rfl⟩
      | catchPanic body =>
        obtain rfl : v = u := Option.some.inj ho
        exact ⟨_, hrefused _ body, itemsAll_of_items_eq_zero rfl⟩
      | _ => cases ho
  | _ => cases ho

/-- A scope of a cancelled unit that waits for a transaction fails when it is looked at. -/
theorem Machine.step_of_acquiring (hc : m.world.isCancelled u = true) {body : List (Step H)}
    {limit : Option (Nat × Nat)} {wait : Acquiring}
    (hf : m.focus = .enter (.acquiring u body limit wait)) :
    m.step = failUnserved (wait.withdraw m.world) m.layers u .cancelled := by
  rw [Machine.step, hf]
  exact if_pos hc

/-- The work of a scope of a cancelled unit is dropped when the scope is looked at. -/
theorem Machine.step_of_under (hc : m.world.isCancelled u = true) {f : Frame H} {inner : Paused H}
    (hf : f.isScope u = true) (hfocus : m.focus = .enter (.under f inner)) :
    m.step = failWith (inner.abandon m.world) (.frame f :: m.layers) .cancelled := by
  have hcut : f.cutsOff m.world = true := by
    cases f with
    | nested v h => exact beq_iff_eq.mp hf ▸ hc
    | outer v h => exact beq_iff_eq.mp hf ▸ hc
    | _ => cases hf
  rw [Machine.step, hfocus]
  exact if_pos hcut

end Refused

/-! ## From the cancellation on -/

/-- What is told of a unit that has been cancelled at a moment `m` of a run, when the run has come
    to `m'` and has written down `news` since. -/
structure CancelHolds (T : UnitId → Prop) (u : UnitId) (m m' : Machine H) (news : List (Mark H)) :
    Prop where
  /-- It stays cancelled. -/
  stays : m'.world.isCancelled u = true
  /-- None of its scopes has asked for a transaction or received one. -/
  begins : .requested u ∉ news ∧ ∀ h, .opened u h ∉ news
  /-- No commit has been called for. -/
  commits : ∀ h, (account h m'.world.marks).opener = some u → .ending .commit h ∉ news
  /-- A scope that is looked at again is cut off: its work is dropped, nested scopes and all. -/
  cuts : ∀ f inner, f.isScope u = true → m'.focus = .enter (.under f inner) →
    m'.step = failWith (inner.abandon m'.world) (.frame f :: m'.layers) .cancelled
  /-- Once the run has been outside of the work of the outermost scope, it executes no step of this
      work any more: when it is inside, the scope has just been cut off. -/
  shut : ∀ between, Run T m between → Run T between m' → ¬ between.IsInside u → m'.IsInside u →
    ∃ h rest, m'.layers = .frame (.outer u h) :: rest ∧
      m'.focus = .finish (.error (.transaction .cancelled))
  /-- A scope that begins is refused, and none of its work is executed. -/
  refuses : m'.opensOn? = some u →
    ∃ layers, m'.step = failWith (m'.world.mark (.refused u)) layers .cancelled ∧
      Layer.itemsAll layers = Layer.itemsAll m'.layers
  /-- A scope that waits for a transaction fails with the cancellation when it is looked at. -/
  waits : ∀ body limit wait, m'.focus = .enter (.acquiring u body limit wait) →
    m'.step = failUnserved (wait.withdraw m'.world) m'.layers u .cancelled
  /-- So have all that have ended. -/
  unserved : ∀ e, .unserved u e ∈ news → e = .cancelled
  /-- A nested scope whose work has run to its end has ended with an error, and with the
      cancellation if the run was not inside the work of the outermost scope. -/
  nested : ∀ h outcome, .nestedEnded u h (some outcome) ∈ news →
    (∃ e, outcome = .error e) ∧
      (¬ m.IsInside u → outcome = .error (.transaction .cancelled))
  /-- Only work that was under way can have ended otherwise than with the cancellation. -/
  own : m'.underWay u + ownEnds u news ≤ m.underWay u
  /-- An outermost scope whose work went on has been rolled back, if it has returned: with the error
      of its work, if this ended before the run left it, or else with the cancellation. -/
  stopped : ∀ h r, .outer u h ∈ m.items → (account h m'.world.marks).course.returned = some r →
    ∃ work failure, (account h m'.world.marks).course =
        { work := some (some (work, true)), calls := [.rollback]
          answers := [(.rollback, failure)], returned := some r } ∧
      r = stoppedOutcome work ∧
      ∀ between, Run T m between → Run T between m' → .outer u h ∈ between.items →
        ¬ between.IsInside u → r = .error (.transaction .cancelled)
  /-- However its work has ended, the rollback has been called for, or waits in the background,
      unless there was nothing to run it. -/
  rolledBack : ∀ h, .outer u h ∈ m.items → .outer u h ∈ m'.items ∨
    (account h m'.world.marks).course.calls = [.rollback] ∨
    .fresh h ∈ m'.world.background ∨ .lost h ∈ m'.world.marks
  /-- A scope whose commit had been called for ends as the commit is answered. -/
  committed : ∀ h r, (account h m.world.marks).opener = some u → .ending .commit h ∈ m.world.marks →
    (account h m'.world.marks).course.returned = some r →
    ∃ value failure, (account h m'.world.marks).course.answers = [(.commit, failure)] ∧
      r = outcomeAfter false false failure (.ok value)

section Whole

variable {m m' : Machine H} {u : UnitId}

variable (hr : Reached T m) (hu : T u) (hc : m.world.isCancelled u = true) (hrun : Run T m m')

include hr hu hc hrun

/-- Only work that was under way can have ended otherwise than with the cancellation. -/
theorem Reached.own_le {news : List (Mark H)} (hmarks : m'.world.marks = news ++ m.world.marks) :
    m'.underWay u + ownEnds u news ≤ m.underWay u := by
  have hwork : m'.underWay u + ownEnds u m'.world.marks ≤ m.underWay u + ownEnds u m.world.marks :=
    (hr.final hu hc hrun).2.1
  have hsplit : ownEnds u m'.world.marks = ownEnds u news + ownEnds u m.world.marks := by
    rw [hmarks]
    exact List.countP_append
  omega

/-- A run that was outside of the outermost scope finds it cut off when it comes back. -/
theorem Reached.cutOff (ho : ¬ m.IsInside u) (hin : m'.IsInside u) :
    ∃ h rest, m'.layers = .frame (.outer u h) :: rest ∧
      m'.focus = .finish (.error (.transaction .cancelled)) := by
  obtain ⟨-, -, news, hmarks, -⟩ := hr.final hu hc hrun
  have hle := hr.own_le hu hc hrun hmarks
  have hidle := hr.underWay_eq_zero hu ho
  have hnone : m'.underWay u = 0 := by omega
  exact exists_cutOff hnone hin

/-- Work that ends after the run was outside of the outermost scope ends with the cancellation. -/
theorem Reached.ends_cancelled {news : List (Mark H)}
    (hmarks : m'.world.marks = news ++ m.world.marks) (ho : ¬ m.IsInside u) {mark : Mark H}
    {outcome : Outcome H} (hin : mark ∈ news) (hmark : mark.isOwnEnd u = !isCancellation outcome) :
    outcome = .error (.transaction .cancelled) := by
  have hle := hr.own_le hu hc hrun hmarks
  have hidle := hr.underWay_eq_zero hu ho
  have hnone : ownEnds u news = 0 := by omega
  have hnot := List.countP_eq_zero.mp hnone mark hin
  rw [hmark, Bool.not_eq_true', Bool.not_eq_false] at hnot
  exact eq_of_isCancellation hnot

/-- So does a scope whose work has ended then. -/
theorem Reached.returned_cancelled {h : Handle} {r : Outcome H} (ho : ¬ m.IsInside u)
    (hin : .outer u h ∈ m.items) (hret : (account h m'.world.marks).course.returned = some r) :
    r = .error (.transaction .cancelled) := by
  obtain ⟨-, -, news, hmarks, hfinal⟩ := hr.final hu hc hrun
  obtain ⟨work, -, -, hresult, hended⟩ := returned_of_stopped hr (hr.run hrun) hu hin hmarks
    (fun mark hin => (hfinal mark hin).1) hret
  have hwork : work = .error (.transaction .cancelled) :=
    hr.ends_cancelled hu hc hrun hmarks ho hended (by simp [Mark.isOwnEnd])
  rw [hresult, hwork]
  rfl

/-- In every run that uses a unit in order, its cancellation takes place when it is called for and is
    final, and what is told of it has been done. -/
theorem cancel_holds :
    CancelTakes u H ∧ (∃ news, m'.world.marks = news ++ m.world.marks ∧
      CancelHolds T u m m' news) ∧ TellsTrue T m' := by
  obtain ⟨hstays, -, news, hmarks, hfinal⟩ := hr.final hu hc hrun
  have hr' := hr.run hrun
  have hnews : ∀ mark ∈ news, mark.IsFinal u m'.world.marks := fun mark hin => (hfinal mark hin).1
  have hlater : ∀ between, Run T m between → between.world.isCancelled u = true :=
    fun between hfirst => (hr.final hu hc hfirst).1
  refine ⟨cancelTakes u, ⟨news, hmarks, ?_⟩, hr'.tellsTrue⟩
  constructor
  case stays => exact hstays
  case begins => exact ⟨fun hin => hnews _ hin rfl, fun h hin => hnews _ hin rfl⟩
  case commits =>
    intro h ho hin
    obtain ⟨v, hv, hother⟩ := hnews _ hin
    exact hv (Option.some.inj (hother.symm.trans ho))
  case cuts => exact fun f inner hf hfocus => Machine.step_of_under hstays hf hfocus
  case shut =>
    intro between hfirst hlast ho hin
    exact (hr.run hfirst).cutOff hu (hlater between hfirst) hlast ho hin
  case refuses => exact Machine.step_of_opensOn hstays
  case waits => exact fun body limit wait hf => Machine.step_of_acquiring hstays hf
  case unserved => exact fun e hin => hnews _ hin rfl
  case nested =>
    intro h outcome hin
    refine ⟨?_, fun ho => hr.ends_cancelled hu hc hrun hmarks ho hin (by simp [Mark.isOwnEnd])⟩
    cases outcome with
    | ok value => exact absurd rfl ((hfinal _ hin).2 h value)
    | error e => exact ⟨e, rfl⟩
  case own => exact hr.own_le hu hc hrun hmarks
  case stopped =>
    intro h r hin hret
    obtain ⟨work, failure, hcourse, hresult, -⟩ :=
      returned_of_stopped hr hr' hu hin hmarks hnews hret
    refine ⟨work, failure, hcourse, hresult, fun between hfirst hlast hstill ho => ?_⟩
    exact (hr.run hfirst).returned_cancelled hu (hlater between hfirst) hlast ho hstill hret
  case rolledBack => exact fun h hin => rolledBack_of_stopped hr hr' hu hin hmarks hnews
  case committed =>
    intro h r ho hcommit hret
    have hsuffix : m.world.marks <:+ m'.world.marks := hmarks ▸ List.suffix_append news _
    exact hr'.returned_of_commit hu (hr'.timely.opener hsuffix ho) (hsuffix.subset hcommit) hret

end Whole

/-- A scope whose nested scope waits to be looked at again; then its unit is cancelled. -/
def cancelledWork : Machine scriptHost :=
  (Machine.settleWithin 40
    ⟨World.fresh (.scripted ⟨"scripted", ⟨0, [], 0⟩, ⟨0, [], 0⟩, ⟨0, [], 0⟩⟩) none (), [],
      .exec 0 .null [.scope .here .lenient [.scope .here .lenient [.yield], .give .null]]⟩).cancelled 0

/-- It is looked at again. -/
def cutOffWork : Machine scriptHost := Machine.settleWithin 40 cancelledWork.polled

theorem reached_cancelledWork : Reached (· ∈ [0]) cancelledWork :=
  (Reached.settleWithin 40 ⟨_, 0, .null, _, World.fresh_isQuiet _ _ _, .refl⟩ (by decide)).cancelled 0

theorem run_cutOffWork : Run (· ∈ [0]) cancelledWork cutOffWork :=
  (Run.polled cancelledWork).trans (Run.settleWithin 40 (by decide))

theorem outer_mem_cancelledWork : .outer 0 1 ∈ cancelledWork.items :=
  ((reached_cancelledWork.nested.nested 0 (by decide)).holds.works 1).mpr ⟨_, rfl, rfl⟩

/-- The scope returns the cancellation, and its transaction is rolled back. -/
theorem cancel_holds_cutOffWork :
    Reached (· ∈ [0]) cancelledWork ∧ 0 ∈ [0] ∧ cancelledWork.world.isCancelled 0 = true ∧
      Run (· ∈ [0]) cancelledWork cutOffWork ∧ .outer 0 1 ∈ cancelledWork.items ∧
      (account 1 cutOffWork.world.marks).course.returned =
        some (.error (.transaction .cancelled)) ∧
      CancelTakes 0 scriptHost ∧
      (∃ news, cutOffWork.world.marks = news ++ cancelledWork.world.marks ∧
        CancelHolds (· ∈ [0]) 0 cancelledWork cutOffWork news) ∧
      TellsTrue (· ∈ [0]) cutOffWork :=
  ⟨reached_cancelledWork, by decide, rfl, run_cutOffWork, outer_mem_cancelledWork, rfl,
    cancel_holds reached_cancelledWork (by decide) rfl run_cutOffWork⟩

end BootEngine.Work
