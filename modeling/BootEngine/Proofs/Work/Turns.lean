import BootEngine.Proofs.Work.Lockstep
import BootEngine.Proofs.Work.Sharing

/-!
# Turns

A step of the machine acts on the focus and the layer next to it. So a branch that has its turn
inside a join takes the steps that it takes when it is run alone, until it comes to rest.

Contents:
* `Machine.under`, `Machine.step_under`: a run inside more layers.
* `ComesToRest`: a run comes to rest after a number of steps.
* `requests_step`, `requests_drive`: what has been asked of the source is never less than before.
* `ComesToRest.like`: runs that are alike come to rest after the same number of steps, and are alike
  then.
* `turnLayers`, `ComesToRest.hears`: what is heard of a branch while one has its turn.
-/

namespace BootEngine.Work

open Transaction (Terminal Handle Source Context)

variable {H : Host}

/-! ## Runs inside more layers -/

/-- A run inside more layers. -/
def Machine.under (outer : List (Layer H)) (m : Machine H) : Machine H :=
  { m with layers := m.layers ++ outer }

section Under

variable (w : World H) (layers outer : List (Layer H)) (u : UnitId)

theorem nextEffect_under (held : List Handle) (h : Handle) (index : Nat)
    (effects : List (List (Step H))) (value : Value) :
    nextEffect w (layers ++ outer) held u h index effects value =
      (nextEffect w layers held u h index effects value).under outer := by
  cases effects <;> rfl

theorem settle_under (failure : Option String) (call : Closing H) :
    settle w (layers ++ outer) failure call = (settle w layers failure call).under outer := by
  cases call with
  | commit held u h effects value =>
    cases failure with
    | none => exact nextEffect_under ..
    | some reason => rfl
  | rollback held u h outcome => rfl
  | direct u t h value rest => rfl

theorem startClosing_under (call : Closing H) :
    startClosing w (layers ++ outer) call = (startClosing w layers call).under outer := by
  unfold startClosing
  dsimp only
  split
  · exact settle_under ..
  · rfl

theorem closeScope_under (h : Handle) (outcome : Outcome H) :
    closeScope w (layers ++ outer) u h outcome = (closeScope w layers u h outcome).under outer := by
  unfold closeScope
  split
  · rfl
  · cases outcome with
    | error e => exact startClosing_under ..
    | ok value =>
      dsimp only
      split
      · exact startClosing_under ..
      · split <;> exact startClosing_under ..

theorem tryAcquire_under (body : List (Step H)) (limit : Option (Nat × Nat)) (wait : Acquiring) :
    tryAcquire w (layers ++ outer) u body limit wait =
      (tryAcquire w layers u body limit wait).under outer := by
  unfold tryAcquire
  split
  · cases wait with
    | ticket number => rfl
    | answer due reply => cases reply <;> rfl
  · split
    · split <;> rfl
    · rfl

theorem beginOutermost_under (body : List (Step H)) :
    beginOutermost w (layers ++ outer) u body = (beginOutermost w layers u body).under outer := by
  unfold beginOutermost
  dsimp only
  split
  · rfl
  · exact tryAcquire_under ..
  · exact tryAcquire_under ..

theorem enterScope_under (body : List (Step H)) :
    enterScope w (layers ++ outer) u body = (enterScope w layers u body).under outer := by
  unfold enterScope
  split
  · rfl
  · split
    · rfl
    · exact beginOutermost_under ..

theorem visit_under (done todo : List (Branch H (Paused H))) :
    visit w (layers ++ outer) u done todo = (visit w layers u done todo).under outer := by
  induction todo generalizing done with
  | nil =>
    rw [visit_nil, visit_nil]
    split <;> rfl
  | cons branch rest ih =>
    cases branch with
    | finished => exact ih _
    | idle steps => rfl
    | paused p => rfl

theorem execStep_under (value : Value) (rest : List (Step H)) (s : Step H) :
    execStep w (layers ++ outer) u value rest s =
      (execStep w layers u value rest s).under outer := by
  cases s with
  | perform action =>
    simp only [execStep]
    cases (H.perform action w.host).1 <;> rfl
  | sleep ms =>
    show (if ms = 0 then _ else _) = Machine.under outer (if ms = 0 then _ else _)
    split <;> rfl
  | cancel name => cases name <;> rfl
  | finish terminal =>
    simp only [execStep]
    cases w.context? u with
    | none => rfl
    | some c => exact startClosing_under ..
  | scope place how body =>
    cases place with
    | here => exact enterScope_under w (_ :: layers) outer u body
    | fresh => exact enterScope_under w.addUnit.2 (_ :: layers) outer _ body
  | within place body =>
    cases place with
    | here => exact enterScope_under ..
    | fresh => exact enterScope_under ..
  | timeout ms body => exact enterScope_under w (_ :: layers) outer u body
  | catchPanic body => exact enterScope_under w (_ :: layers) outer u body
  | defer strict effect =>
    simp only [execStep]
    cases w.context? u with
    | some c => rfl
    | none => cases strict <;> rfl
  | iterate count body => cases count <;> rfl
  | join branches => exact visit_under w (_ :: layers) outer u [] _
  | _ => rfl

theorem resume_under (outcome : Outcome H) (f : Frame H) :
    resume w (layers ++ outer) outcome f = (resume w layers outcome f).under outer := by
  cases f with
  | after u how value rest =>
    show (if (report w outcome how).2 then _ else _) =
      Machine.under outer (if (report w outcome how).2 then _ else _)
    split <;> rfl
  | outer u h => exact closeScope_under ..
  | effects held u h index rest value => exact nextEffect_under ..
  | _ => rfl

theorem enter_under (p : Paused H) :
    enter w (layers ++ outer) p = (enter w layers p).under outer := by
  cases p with
  | branches u items => exact visit_under ..
  | yielded => rfl
  | sleeping due =>
    show (if due ≤ w.now then _ else _) = Machine.under outer (if due ≤ w.now then _ else _)
    split <;> rfl
  | acquiring u body limit wait =>
    show (if w.isCancelled u then _ else _) = Machine.under outer (if w.isCancelled u then _ else _)
    split
    · rfl
    · exact tryAcquire_under ..
  | closing due failure call =>
    show (if due ≤ w.now then _ else _) = Machine.under outer (if due ≤ w.now then _ else _)
    split
    · exact settle_under ..
    · rfl
  | under frame inner =>
    show (if frame.cutsOff w then _ else _) = Machine.under outer (if frame.cutsOff w then _ else _)
    split <;> rfl

theorem suspend_under (p : Paused H) (f : Frame H) :
    suspend w (layers ++ outer) p f = (suspend w layers p f).under outer := by
  cases f with
  | timeout u due value rest =>
    show (if due ≤ w.now then _ else _) = Machine.under outer (if due ≤ w.now then _ else _)
    split <;> rfl
  | _ => rfl

theorem panicThrough_under (f : Frame H) :
    panicThrough w (layers ++ outer) f = (panicThrough w layers f).under outer := by
  cases f <;> rfl

end Under

/-- A run that is not at rest takes the same step inside more layers. -/
theorem Machine.step_under (outer : List (Layer H)) {m : Machine H} (h : m.isAtRest = false) :
    (m.under outer).step = m.step.under outer := by
  obtain ⟨w, layers, focus⟩ := m
  cases focus with
  | enter p => exact enter_under ..
  | exec u value steps =>
    cases steps with
    | nil => rfl
    | cons s rest => exact execStep_under ..
  | finish outcome =>
    cases layers with
    | nil => cases h
    | cons layer layers =>
      cases layer with
      | frame f => exact resume_under ..
      | joining u done todo => exact visit_under ..
  | unwind =>
    cases layers with
    | nil => cases h
    | cons layer layers =>
      cases layer with
      | frame f => exact panicThrough_under ..
      | joining u done todo => rfl
  | pause p =>
    cases layers with
    | nil => cases h
    | cons layer layers =>
      cases layer with
      | frame f => exact suspend_under ..
      | joining u done todo => exact visit_under ..

/-- What stands around the outermost join of the first unit. -/
def joinFrame : Frame H := .after 0 .passing .null []

/-- What stands around a branch that has its turn in that join. -/
def turnLayers (done todo : List (Branch H (Paused H))) : List (Layer H) :=
  [.joining 0 done todo, .frame joinFrame]

/-- A branch that has its turn is not at rest as a whole. -/
theorem Machine.isAtRest_under (m : Machine H) (done todo : List (Branch H (Paused H))) :
    (m.under (turnLayers done todo)).isAtRest = false := by
  obtain ⟨w, layers, focus⟩ := m
  cases layers <;> rfl

theorem settleWithin_succ_under (m : Machine H) (done todo : List (Branch H (Paused H)))
    (fuel : Nat) :
    (m.under (turnLayers done todo)).settleWithin (fuel + 1) =
      (m.under (turnLayers done todo)).step.settleWithin fuel := by
  rw [Machine.settleWithin, m.isAtRest_under, if_neg Bool.false_ne_true]

/-! ## Coming to rest -/

/-- A run comes to rest after a number of steps. -/
inductive ComesToRest : Nat → Machine H → Machine H → Prop
  | rest {m : Machine H} (h : m.isAtRest = true) : ComesToRest 0 m m
  | step {k : Nat} {m r : Machine H} (h : m.isAtRest = false) (hs : ComesToRest k m.step r) :
      ComesToRest (k + 1) m r

section Rest

variable {k : Nat} {m r : Machine H}

theorem ComesToRest.isAtRest (h : ComesToRest k m r) : r.isAtRest = true := by
  induction h with
  | rest h => exact h
  | step _ _ ih => exact ih

theorem ComesToRest.settleWithin (h : ComesToRest k m r) {fuel : Nat} (hk : k ≤ fuel) :
    m.settleWithin fuel = r := by
  induction h generalizing fuel with
  | rest h =>
    cases fuel with
    | zero => rfl
    | succ fuel => rw [Machine.settleWithin, if_pos h]
  | step h _ ih =>
    cases fuel with
    | zero => exact absurd hk (Nat.not_succ_le_zero _)
    | succ fuel =>
      rw [Machine.settleWithin, if_neg (Bool.not_eq_true _ ▸ h)]
      exact ih (Nat.le_of_succ_le_succ hk)

/-- A run comes to rest in one way only. -/
theorem ComesToRest.unique (h : ComesToRest k m r) {k' : Nat} {r' : Machine H}
    (h' : ComesToRest k' m r') : r = r' := by
  rw [← h.settleWithin (Nat.le_max_left k k'), h'.settleWithin (Nat.le_max_right k k')]

/-- A branch comes to rest before the join goes on, or the run does not get beyond its turn. -/
theorem comesToRest_or (done todo : List (Branch H (Paused H))) (fuel : Nat) (m : Machine H) :
    (∃ k r, ComesToRest k m r ∧ k < fuel) ∨
      ((m.under (turnLayers done todo)).settleWithin fuel =
        (m.settleWithin fuel).under (turnLayers done todo) ∧
        ∀ j < fuel, (Machine.step^[j] m).isAtRest = false) := by
  induction fuel generalizing m with
  | zero => exact .inr ⟨rfl, fun j hj => absurd hj (Nat.not_lt_zero j)⟩
  | succ fuel ih =>
    cases hm : m.isAtRest with
    | true => exact .inl ⟨0, m, .rest hm, Nat.succ_pos _⟩
    | false =>
      rcases ih m.step with ⟨k, r, hs, hk⟩ | ⟨hsettle, hmoves⟩
      · exact .inl ⟨k + 1, r, .step hm hs, Nat.succ_lt_succ hk⟩
      · refine .inr ⟨?_, fun j hj => ?_⟩
        · rw [settleWithin_succ_under, Machine.step_under _ hm, hsettle, Machine.settleWithin, hm,
            if_neg Bool.false_ne_true]
        · cases j with
          | zero => exact hm
          | succ j => exact hmoves j (Nat.lt_of_succ_lt_succ hj)

/-- Inside more layers a run goes on from where it has come to rest. -/
theorem ComesToRest.settleWithin_under (h : ComesToRest k m r)
    (done todo : List (Branch H (Paused H))) (fuel : Nat) :
    (m.under (turnLayers done todo)).settleWithin (k + fuel) =
      (r.under (turnLayers done todo)).settleWithin fuel := by
  induction h with
  | rest h => rw [Nat.zero_add]
  | @step k m r h hs ih =>
    rw [Nat.succ_add, settleWithin_succ_under, Machine.step_under _ h, ih]

end Rest

/-! ## Requests -/

section Requests

theorem requests_eq (w : World H) :
    w.requests = w.marks.countP fun m => (Entry.mark m).isRequest := by
  show w.journal.countP Entry.isRequest =
    (w.journal.filterMap Entry.mark?).countP fun m => (Entry.mark m).isRequest
  induction w.journal with
  | nil => rfl
  | cons e rest ih =>
    rw [List.countP_cons, ih, List.filterMap_cons]
    cases e with
    | mark m => exact List.countP_cons.symm
    | _ => rfl

/-- What is written down stays. -/
theorem requests_le_of_deeds {before after : Scene H} (hdeeds : AnyDeeds before after) :
    before.world.requests ≤ after.world.requests := by
  induction hdeeds with
  | refl => exact Nat.le_refl _
  | tail _ hdeed ih =>
    obtain ⟨ms, hmarks, -⟩ := hdeed.marks
    rw [requests_eq (World.mk ..), requests_eq] at *
    rw [hmarks, List.countP_append]
    exact Nat.le_add_left_of_le ih

theorem requests_step (m : Machine H) : m.world.requests ≤ m.step.world.requests :=
  requests_le_of_deeds m.step_anyDeeds

theorem requests_settleWithin (fuel : Nat) (m : Machine H) :
    m.world.requests ≤ (m.settleWithin fuel).world.requests := by
  induction fuel generalizing m with
  | zero => exact Nat.le_refl _
  | succ fuel ih =>
    rw [Machine.settleWithin]
    split
    · exact Nat.le_refl _
    · exact Nat.le_trans (requests_step m) (ih m.step)

theorem ComesToRest.requests {k : Nat} {m r : Machine H} (h : ComesToRest k m r) :
    m.world.requests ≤ r.world.requests := by
  rw [← h.settleWithin (Nat.le_refl k)]
  exact requests_settleWithin k m

theorem requests_waitFor (limit : Nat) (p : Paused H) (w : World H) :
    w.requests ≤ (waitFor limit p w).requests := by
  have hback : w.requests ≤ w.runBackground.requests :=
    requests_le_of_deeds (background_anyDeeds w [] (.pause p))
  unfold waitFor
  dsimp only
  split
  · exact hback
  · exact hback

theorem requests_pass_of {limit fuel passes : Nat}
    (hdrive : ∀ (w : World H) focus, w.requests ≤ (drive limit fuel passes w focus).1.requests)
    (w : World H) (focus : Focus H) :
    (pass fuel w focus).world.requests ≤ (drive limit fuel (passes + 1) w focus).1.requests := by
  rw [drive]
  split
  · next heq => rw [heq]
  · next w' p heq =>
    rw [heq]
    split
    · exact requests_le_of_deeds (drop_anyDeeds w' p)
    · exact Nat.le_trans (requests_waitFor limit p w') (hdrive _ _)
  · next heq => rw [heq]
  · next heq => rw [heq]

theorem requests_drive (limit fuel passes : Nat) (w : World H) (focus : Focus H) :
    w.requests ≤ (drive limit fuel passes w focus).1.requests := by
  induction passes generalizing w focus with
  | zero => exact Nat.le_refl _
  | succ passes ih =>
    have hpass : w.requests ≤ (pass fuel w focus).world.requests :=
      requests_settleWithin fuel ⟨w, [], focus⟩
    exact Nat.le_trans hpass (requests_pass_of ih w focus)

theorem requests_pass (limit fuel passes : Nat) (w : World H) (focus : Focus H) :
    (pass fuel w focus).world.requests ≤ (drive limit fuel (passes + 1) w focus).1.requests :=
  requests_pass_of (requests_drive limit fuel passes) w focus

end Requests

/-! ## Coming to rest in lockstep -/

section Alike

variable {R : Realm H} {n k : Nat} {B : Base H} {N : Pairing} {m m' r : Machine H}

/-- Runs that are alike come to rest together, and are alike then. -/
theorem ComesToRest.like (hR : R.IsClosed) (hrest : ComesToRest k m r)
    (hm : MachineLike R n B N m m') (hroom : r.world.requests ≤ n) :
    ∃ N' r', N ≤ N' ∧ ComesToRest k m' r' ∧ MachineLike R n B N' r r' := by
  induction hrest generalizing m' N with
  | rest h => exact ⟨N, m', N.le_refl, .rest (hm.isAtRest ▸ h), hm⟩
  | step h hs ih =>
    obtain ⟨N', hN, hstep⟩ := hm.step hR (Nat.le_trans hs.requests hroom)
    obtain ⟨N'', r', hN', hs', hr⟩ := ih hstep hroom
    exact ⟨N'', r', Pairing.le_trans hN hN', .step (hm.isAtRest ▸ h) hs', hr⟩

/-- Runs that are alike stay alike for a number of steps. -/
theorem MachineLike.settleWithin (hR : R.IsClosed) (fuel : Nat) (hm : MachineLike R n B N m m')
    (hroom : (m.settleWithin fuel).world.requests ≤ n) :
    Lockstep R n B N (m.settleWithin fuel) (m'.settleWithin fuel) := by
  induction fuel generalizing m m' N with
  | zero => exact .same hm
  | succ fuel ih =>
    rw [Machine.settleWithin] at hroom ⊢
    rw [Machine.settleWithin, ← hm.isAtRest]
    split at hroom
    · next hrest =>
      rw [if_pos hrest, if_pos hrest]
      exact .same hm
    · next hrest =>
      rw [if_neg hrest, if_neg hrest]
      obtain ⟨N', hN, hstep⟩ :=
        hm.step hR (Nat.le_trans (requests_settleWithin fuel m.step) hroom)
      exact (ih hstep hroom).more hN

/-- The journal goes on from an earlier one. -/
def World.GoesOn (old w : World H) : Prop := ∃ ws, w.journal = ws ++ old.journal

theorem since_of_append {old w : World H} {ws : List (Entry H)}
    (h : w.journal = ws ++ old.journal) : old.since w = ws.reverse := by
  rw [World.since, h, List.length_append, Nat.add_sub_cancel, List.take_left]

theorem World.GoesOn.refl (w : World H) : w.GoesOn w := ⟨[], rfl⟩

theorem since_self (w : World H) : w.since w = [] := since_of_append (List.nil_append _).symm

theorem World.GoesOn.trans {a b c : World H} (hab : a.GoesOn b) (hbc : b.GoesOn c) :
    a.GoesOn c ∧ a.since c = a.since b ++ b.since c := by
  obtain ⟨ws, hws⟩ := hab
  obtain ⟨ws', hws'⟩ := hbc
  have hac : c.journal = (ws' ++ ws) ++ a.journal := by rw [hws', hws, List.append_assoc]
  refine ⟨⟨_, hac⟩, ?_⟩
  rw [since_of_append hac, since_of_append hws, since_of_append hws', List.reverse_append]

theorem MachineLike.goesOn_step (hR : R.IsClosed) (hm : MachineLike R n B N m m')
    (hroom : m.step.world.requests ≤ n) : m.world.GoesOn m.step.world := by
  have hfresh : MachineLike R n ⟨N, m.world, m'.world⟩ N m m' :=
    ⟨hm.world.agree.alike hm.world.now, hm.layers, hm.focus⟩
  obtain ⟨_, -, hstep⟩ := hfresh.step hR hroom
  obtain ⟨ws, _, _, hwritten⟩ := hstep.world.since.written
  exact ⟨ws, hwritten.left⟩

end Alike

/-! ## What is heard of a turn -/

/-- What is heard when a branch comes to rest. -/
def Focus.lastHeard : Focus H → List (Heard H)
  | .finish outcome => [.ended outcome]
  | .unwind => [.panicked]
  | _ => []

section Hears

variable {R : Realm H} {n k i : Nat} {B : Base H} {N : Pairing} {m m' r : Machine H}
  {done todo : List (Branch H (Paused H))}

theorem turn?_under (m : Machine H) (done todo : List (Branch H (Paused H))) :
    (m.under (turnLayers done todo)).turn? = some (done.length, m) := by
  have hlayers : (m.under (turnLayers done todo)).layers.reverse =
      .frame joinFrame :: .joining 0 done todo :: m.layers.reverse := by
    show (m.layers ++ turnLayers done todo).reverse = _
    rw [List.reverse_append]
    rfl
  rw [Machine.turn?, hlayers]
  dsimp only
  rw [List.reverse_reverse]
  rfl

theorem visit_world (w : World H) (layers : List (Layer H)) (u : UnitId)
    (done todo : List (Branch H (Paused H))) : (visit w layers u done todo).world = w := by
  induction todo generalizing done with
  | nil =>
    rw [visit_nil]
    split <;> rfl
  | cons branch rest ih =>
    cases branch with
    | finished => exact ih _
    | idle steps => rfl
    | paused p => rfl

/-- Nothing is heard of a branch while another one has its turn. -/
theorem heard_other (m : Machine H) (h : done.length ≠ i) :
    (m.under (turnLayers done todo)).heard i = [] := by
  rw [Machine.heard, turn?_under]
  exact if_neg h

/-- A branch that has its turn writes down what it writes down alone. -/
theorem heard_own (h : done.length = i) (hm : m.isAtRest = false) :
    (m.under (turnLayers done todo)).heard i = (m.world.since m.step.world).map .wrote := by
  have hstep : (m.under (turnLayers done todo)).step.world = m.step.world := by
    rw [Machine.step_under _ hm]
    rfl
  rw [Machine.heard, turn?_under]
  dsimp only
  rw [if_pos h, hstep]
  obtain ⟨w, layers, focus⟩ := m
  cases layers with
  | cons _ _ => rfl
  | nil =>
    cases focus with
    | finish outcome => cases hm
    | unwind => cases hm
    | _ => rfl

/-- A branch comes to rest in its turn. -/
theorem heard_last (h : done.length = i) (hr : r.isAtRest = true) :
    (r.under (turnLayers done todo)).heard i = r.focus.lastHeard := by
  rw [Machine.heard, turn?_under]
  dsimp only
  rw [if_pos h]
  obtain ⟨w, layers, focus⟩ := r
  cases layers with
  | cons _ _ => cases focus <;> cases hr
  | nil =>
    cases focus with
    | finish outcome => rfl
    | unwind => rfl
    | enter p => cases hr
    | exec u value steps => cases hr
    | pause p =>
      have hstep : ((⟨w, [], .pause p⟩ : Machine H).under (turnLayers done todo)).step.world = w :=
        visit_world ..
      dsimp only
      rw [hstep]
      show (w.since w).map Heard.wrote = _
      rw [since_self]
      rfl

theorem hears_succ (m : Machine H) (fuel : Nat) :
    (m.under (turnLayers done todo)).hears i (fuel + 1) =
      (m.under (turnLayers done todo)).heard i ++
        (m.under (turnLayers done todo)).step.hears i fuel := by
  rw [Machine.hears, m.isAtRest_under, if_neg Bool.false_ne_true]

/-- As long as a branch has its turn and does not come to rest, no end of a branch is heard. -/
theorem hears_restless (done todo : List (Branch H (Paused H))) (i : Nat) {fuel : Nat}
    (hmoves : ∀ j < fuel, (Machine.step^[j] m).isAtRest = false) :
    ((m.under (turnLayers done todo)).hears i fuel).filterMap Heard.fate? = [] ∧
      (done.length ≠ i → (m.under (turnLayers done todo)).hears i fuel = []) := by
  induction fuel generalizing m with
  | zero => exact ⟨rfl, fun _ => rfl⟩
  | succ fuel ih =>
    have hm : m.isAtRest = false := hmoves 0 (Nat.succ_pos _)
    obtain ⟨hfates, hnone⟩ := ih (m := m.step) fun j hj => hmoves (j + 1) (Nat.succ_lt_succ hj)
    have hheard : ((m.under (turnLayers done todo)).heard i).filterMap Heard.fate? = [] := by
      by_cases h : done.length = i
      · rw [heard_own h hm, List.filterMap_map]
        exact List.filterMap_eq_nil_iff.mpr fun _ _ => rfl
      · rw [heard_other m h]
        rfl
    rw [hears_succ, Machine.step_under _ hm, List.filterMap_append, hheard, hfates]
    exact ⟨rfl, fun h => by rw [heard_other m h, hnone h, List.nil_append]⟩

/-- Until another branch comes to rest, nothing is heard of a branch. -/
theorem ComesToRest.hears_other (hrest : ComesToRest k m r) (h : done.length ≠ i) (fuel : Nat) :
    (m.under (turnLayers done todo)).hears i (k + fuel) =
      (r.under (turnLayers done todo)).hears i fuel := by
  induction hrest with
  | rest _ => rw [Nat.zero_add]
  | step hm _ ih =>
    rw [Nat.succ_add, hears_succ, heard_other _ h, List.nil_append, Machine.step_under _ hm, ih]

/-- Until a branch comes to rest, what it writes down is heard of it. -/
theorem ComesToRest.hears_own (hR : R.IsClosed) (hrest : ComesToRest k m r)
    (hm : MachineLike R n B N m m') (hroom : r.world.requests ≤ n) (h : done.length = i)
    (fuel : Nat) :
    m.world.GoesOn r.world ∧ (m.under (turnLayers done todo)).hears i (k + fuel) =
      (m.world.since r.world).map .wrote ++ (r.under (turnLayers done todo)).hears i fuel := by
  induction hrest generalizing m' N with
  | @rest m hm =>
    rw [Nat.zero_add, since_self]
    exact ⟨.refl _, rfl⟩
  | @step k m r hmoves hs ih =>
    have hasked : m.step.world.requests ≤ n := Nat.le_trans hs.requests hroom
    obtain ⟨_, -, hstep⟩ := hm.step hR hasked
    obtain ⟨hlater, hheard⟩ := ih hstep hroom
    obtain ⟨hgoes, hsince⟩ := (hm.goesOn_step hR hasked).trans hlater
    refine ⟨hgoes, ?_⟩
    rw [Nat.succ_add, hears_succ, heard_own h hmoves, Machine.step_under _ hmoves, hheard, hsince,
      List.map_append, List.append_assoc]

end Hears

end BootEngine.Work
