import BootEngine.Proofs.Work.Turns

/-!
# Waiting

A suspended computation is looked at again whenever anything around it can go on. When it cannot go
on itself, that changes nothing. When everything waits, the clock jumps to the next timer; a
computation that waits among others sees the clock stop more often, but never later than alone.

Contents:
* `Paused.isReady_of_deadline`, `Paused.isReady_at`: readiness by the clock.
* `PausedLike.isReady`, `PausedLike.deadlines`: computations that are alike wait for the same.
* `ComesToRest.of_not_ready`: looking at a computation that cannot go on changes nothing.
* `waitFor_cases`: the time to which the clock jumps.
* `InTime`: the clock has not passed the time at which a computation goes on when it waits alone.
-/

namespace BootEngine.Work

open Transaction (Terminal Handle Source Context)

variable {H : Host}

/-! ## Readiness by the clock -/

mutual

/-- A computation whose timer has run out can go on. -/
theorem Paused.isReady_of_deadline {w : World H} {d : Nat} (hd : d ≤ w.now) (p : Paused H)
    (h : d ∈ p.deadlines) : p.isReady w = true := by
  match p with
  | .sleeping due => exact decide_eq_true (List.mem_singleton.mp h ▸ hd)
  | .yielded => rfl
  | .acquiring u body limit wait =>
    unfold Paused.deadlines at h
    unfold Paused.isReady
    rcases List.mem_append.mp h with h | h
    · cases limit with
      | none => cases h
      | some l =>
        have hdue : decide (l.1 ≤ w.now) = true := decide_eq_true (List.mem_singleton.mp h ▸ hd)
        exact Bool.or_eq_true_iff.mpr (.inr hdue)
    · cases wait with
      | ticket number => cases h
      | answer due reply =>
        have hdue : (Acquiring.answer due reply).isReady w = true :=
          decide_eq_true (List.mem_singleton.mp h ▸ hd)
        rw [hdue, Bool.or_true, Bool.true_or]
  | .closing due failure call => exact decide_eq_true (List.mem_singleton.mp h ▸ hd)
  | .under frame inner =>
    unfold Paused.deadlines at h
    unfold Paused.isReady
    rcases List.mem_append.mp h with h | h
    · cases frame with
      | timeout u due value rest =>
        have hdue : decide (due ≤ w.now) = true := decide_eq_true (List.mem_singleton.mp h ▸ hd)
        dsimp only
        rw [hdue, Bool.or_true, Bool.true_or]
      | _ => cases h
    · rw [Paused.isReady_of_deadline hd inner h, Bool.or_true]
  | .branches u items => exact Paused.anyReady_of_deadline hd items h

theorem Paused.anyReady_of_deadline {w : World H} {d : Nat} (hd : d ≤ w.now)
    (items : List (Branch H (Paused H))) (h : d ∈ Paused.allDeadlines items) :
    Paused.anyReady items w = true := by
  match items with
  | [] => cases h
  | .paused p :: rest =>
    unfold Paused.allDeadlines at h
    unfold Paused.anyReady
    rcases List.mem_append.mp h with h | h
    · rw [Paused.isReady_of_deadline hd p h, Bool.true_or]
    · rw [Paused.anyReady_of_deadline hd rest h, Bool.or_true]
  | .idle _ :: rest => rfl
  | .finished :: rest =>
    unfold Paused.allDeadlines at h
    exact Paused.anyReady_of_deadline hd rest h

end

mutual

/-- A computation can go on at a time because it could before, or because a timer has run out. -/
theorem Paused.isReady_at {v : World H} {t : Nat} (p : Paused H)
    (h : p.isReady { v with now := t } = true) :
    p.isReady v = true ∨ ∃ d ∈ p.deadlines, d ≤ t := by
  match p with
  | .sleeping due =>
    unfold Paused.isReady at h
    exact .inr ⟨due, List.mem_singleton_self _, of_decide_eq_true h⟩
  | .yielded => exact .inl rfl
  | .acquiring u body limit wait =>
    unfold Paused.isReady at h ⊢
    unfold Paused.deadlines
    rcases Bool.or_eq_true_iff.mp h with h | h
    · rcases Bool.or_eq_true_iff.mp h with h | h
      · have hcancelled : v.isCancelled u = true := h
        rw [hcancelled]
        exact .inl rfl
      · cases wait with
        | ticket number =>
          have hgranted : (Acquiring.ticket number).isReady v = true := h
          rw [hgranted, Bool.or_true]
          exact .inl rfl
        | answer due reply =>
          exact .inr ⟨due, List.mem_append_right _ (List.mem_singleton_self _),
            of_decide_eq_true h⟩
    · cases limit with
      | none => cases h
      | some l => exact .inr ⟨l.1, List.mem_cons_self .., of_decide_eq_true h⟩
  | .closing due failure call =>
    unfold Paused.isReady at h
    exact .inr ⟨due, List.mem_singleton_self _, of_decide_eq_true h⟩
  | .under frame inner =>
    unfold Paused.isReady at h ⊢
    unfold Paused.deadlines
    rcases Bool.or_eq_true_iff.mp h with h | h
    · rcases Bool.or_eq_true_iff.mp h with h | h
      · have hcut : frame.cutsOff v = true := by cases frame <;> exact h
        rw [hcut]
        exact .inl rfl
      · cases frame with
        | timeout u due value rest =>
          exact .inr ⟨due, List.mem_cons_self .., of_decide_eq_true h⟩
        | _ => cases h
    · rcases Paused.isReady_at inner h with h | ⟨d, hd, hle⟩
      · rw [h, Bool.or_true]
        exact .inl rfl
      · exact .inr ⟨d, List.mem_append_right _ hd, hle⟩
  | .branches u items => exact Paused.anyReady_at items h

theorem Paused.anyReady_at {v : World H} {t : Nat} (items : List (Branch H (Paused H)))
    (h : Paused.anyReady items { v with now := t } = true) :
    Paused.anyReady items v = true ∨ ∃ d ∈ Paused.allDeadlines items, d ≤ t := by
  match items with
  | [] => cases h
  | .paused p :: rest =>
    unfold Paused.anyReady at h ⊢
    unfold Paused.allDeadlines
    rcases Bool.or_eq_true_iff.mp h with h | h
    · rcases Paused.isReady_at p h with h | ⟨d, hd, hle⟩
      · rw [h]
        exact .inl rfl
      · exact .inr ⟨d, List.mem_append_left _ hd, hle⟩
    · rcases Paused.anyReady_at rest h with h | ⟨d, hd, hle⟩
      · rw [h, Bool.or_true]
        exact .inl rfl
      · exact .inr ⟨d, List.mem_append_right _ hd, hle⟩
  | .idle _ :: rest => exact .inl rfl
  | .finished :: rest =>
    unfold Paused.anyReady at h ⊢
    unfold Paused.allDeadlines
    exact Paused.anyReady_at rest h

end

section Branches

variable {p : Paused H} {items : List (Branch H (Paused H))}

theorem isReady_of_anyReady {w : World H} (h : Paused.anyReady items w = false)
    (hp : .paused p ∈ items) : p.isReady w = false := by
  induction items with
  | nil => cases hp
  | cons branch rest ih =>
    rcases List.mem_cons.mp hp with rfl | hin
    · exact (Bool.or_eq_false_iff.mp h).1
    · cases branch with
      | idle steps => cases h
      | paused q => exact ih (Bool.or_eq_false_iff.mp h).2 hin
      | finished => exact ih h hin

theorem deadlines_subset (hp : .paused p ∈ items) : p.deadlines ⊆ Paused.allDeadlines items := by
  induction items with
  | nil => cases hp
  | cons branch rest ih =>
    rcases List.mem_cons.mp hp with rfl | hin
    · exact List.subset_append_left ..
    · cases branch with
      | idle steps => exact ih hin
      | paused q => exact fun d hd => List.mem_append_right _ (ih hin hd)
      | finished => exact ih hin

end Branches

/-! ## Computations that are alike -/

section Alike

variable {R : Realm H} {N : Pairing}

theorem FrameLike.cutsOff {w v : World H} {f f' : Frame H}
    (hflags : ∀ p ∈ N.units, w.isCancelled p.1 = v.isCancelled p.2) (hf : FrameLike R N f f') :
    f.cutsOff w = f'.cutsOff v := by
  cases hf with
  | nested hu hh => exact hflags _ hu
  | outer hu hh => exact hflags _ hu
  | _ => rfl

mutual

/-- Computations that are alike can go on at the same times, if the same units are cancelled. -/
theorem PausedLike.isReady {w v : World H}
    (hflags : ∀ p ∈ N.units, w.isCancelled p.1 = v.isCancelled p.2) (hnow : w.now = v.now)
    {p p' : Paused H} (h : PausedLike R N p p') : p.isReady w = p'.isReady v := by
  match h with
  | .sleeping due =>
    unfold Paused.isReady
    rw [hnow]
  | .yielded => rfl
  | .under hf hp =>
    unfold Paused.isReady
    rw [hf.cutsOff hflags, hp.isReady hflags hnow, hnow]
    cases hf <;> rfl
  | .branches _ h => exact h.anyReady hflags hnow

theorem BranchesLike.anyReady {w v : World H}
    (hflags : ∀ p ∈ N.units, w.isCancelled p.1 = v.isCancelled p.2) (hnow : w.now = v.now)
    {u u' : UnitId} {items items' : List (Branch H (Paused H))}
    (h : BranchesLike R N u u' items items') :
    Paused.anyReady items w = Paused.anyReady items' v := by
  match h with
  | .nil _ _ => rfl
  | .idle _ _ => rfl
  | .paused hp hrest =>
    unfold Paused.anyReady
    rw [hp.isReady hflags hnow, hrest.anyReady hflags hnow]
  | .finished hrest =>
    unfold Paused.anyReady
    exact hrest.anyReady hflags hnow

end

mutual

theorem PausedLike.deadlines {p p' : Paused H} (h : PausedLike R N p p') :
    p.deadlines = p'.deadlines := by
  match h with
  | .sleeping due => rfl
  | .yielded => rfl
  | .under hf hp =>
    unfold Paused.deadlines
    rw [hp.deadlines]
    cases hf <;> rfl
  | .branches _ h => exact h.allDeadlines

theorem BranchesLike.allDeadlines {u u' : UnitId} {items items' : List (Branch H (Paused H))}
    (h : BranchesLike R N u u' items items') :
    Paused.allDeadlines items = Paused.allDeadlines items' := by
  match h with
  | .nil _ _ => rfl
  | .idle _ hrest =>
    unfold Paused.allDeadlines
    exact hrest.allDeadlines
  | .paused hp hrest =>
    unfold Paused.allDeadlines
    rw [hp.deadlines, hrest.allDeadlines]
  | .finished hrest =>
    unfold Paused.allDeadlines
    exact hrest.allDeadlines

end

/-! ## Looking at what cannot go on -/

theorem step_of_isAtRest {m : Machine H} (h : m.isAtRest = true) : m.step = m := by
  obtain ⟨w, layers, focus⟩ := m
  cases layers with
  | cons _ _ => cases focus <;> cases h
  | nil => cases focus <;> first | rfl | cases h

theorem ComesToRest.iterate {k : Nat} {m r : Machine H} (h : ComesToRest k m r) (j : Nat) :
    Machine.step^[k + j] m = r := by
  induction h with
  | rest h => exact Function.iterate_fixed (step_of_isAtRest h) _
  | @step k m r _ _ ih =>
    rw [Nat.succ_add, Function.iterate_succ_apply]
    exact ih

mutual

/-- A computation that cannot go on is suspended again. -/
theorem PausedLike.enter_not_ready {w : World H} {p p' : Paused H} (h : PausedLike R N p p')
    (hready : p.isReady w = false) (layers : List (Layer H)) :
    ∃ k, Machine.step^[k] ⟨w, layers, .enter p⟩ = ⟨w, layers, .pause p⟩ := by
  match h with
  | .sleeping due =>
    refine ⟨1, ?_⟩
    unfold Paused.isReady at hready
    show enter w layers (.sleeping due) = _
    exact if_neg (of_decide_eq_false hready)
  | .yielded => cases hready
  | .under (f := f) (p := inner) hf hp =>
    unfold Paused.isReady at hready
    obtain ⟨hfirst, hinner⟩ := Bool.or_eq_false_iff.mp hready
    obtain ⟨hcut, hdue⟩ := Bool.or_eq_false_iff.mp hfirst
    obtain ⟨k, hk⟩ := hp.enter_not_ready hinner (.frame f :: layers)
    have hfirst : (⟨w, layers, .enter (.under f inner)⟩ : Machine H).step =
        ⟨w, .frame f :: layers, .enter inner⟩ := if_neg (by rw [hcut]; exact Bool.false_ne_true)
    have hlast : (⟨w, .frame f :: layers, .pause inner⟩ : Machine H).step =
        ⟨w, layers, .pause (.under f inner)⟩ := by
      cases f with
      | timeout u due value rest => exact if_neg (of_decide_eq_false hdue)
      | _ => rfl
    refine ⟨1 + k + 1, ?_⟩
    rw [Function.iterate_succ_apply, hfirst, Function.iterate_add_apply, hk]
    exact hlast
  | @PausedLike.branches _ _ _ u _ items _ hopen h =>
    obtain ⟨k, hk⟩ := h.visit_not_ready hready layers []
    refine ⟨k + 1, ?_⟩
    rw [Function.iterate_succ_apply]
    show Machine.step^[k] (visit w layers u [] items) = _
    rw [hk, List.append_nil, visit_nil, List.all_reverse, hopen, if_neg Bool.false_ne_true,
      List.reverse_reverse]

theorem BranchesLike.visit_not_ready {w : World H} {u u' : UnitId}
    {items items' : List (Branch H (Paused H))} (h : BranchesLike R N u u' items items')
    (hready : Paused.anyReady items w = false) (layers : List (Layer H))
    (done : List (Branch H (Paused H))) :
    ∃ k, Machine.step^[k] (visit w layers u done items) =
      visit w layers u (items.reverse ++ done) [] := by
  match h with
  | .nil _ _ => exact ⟨0, rfl⟩
  | .idle _ _ => cases hready
  | @BranchesLike.paused _ _ _ _ _ p _ rest _ hp hrest =>
    unfold Paused.anyReady at hready
    obtain ⟨hfirst, hlater⟩ := Bool.or_eq_false_iff.mp hready
    obtain ⟨k, hk⟩ := hp.enter_not_ready hfirst (.joining u done rest :: layers)
    obtain ⟨j, hj⟩ := hrest.visit_not_ready hlater layers (.paused p :: done)
    refine ⟨j + 1 + k, ?_⟩
    rw [Function.iterate_add_apply]
    show Machine.step^[j + 1] (Machine.step^[k] ⟨w, .joining u done rest :: layers, .enter p⟩) = _
    rw [hk, Function.iterate_succ_apply, List.reverse_cons, List.append_assoc]
    exact hj
  | @BranchesLike.finished _ _ _ _ _ rest _ hrest =>
    unfold Paused.anyReady at hready
    obtain ⟨k, hk⟩ := hrest.visit_not_ready hready layers (.finished :: done)
    refine ⟨k, ?_⟩
    rw [List.reverse_cons, List.append_assoc]
    exact hk

end

/-- Looking at a computation that cannot go on changes nothing. -/
theorem ComesToRest.of_not_ready {w : World H} {p p' : Paused H} (hp : PausedLike R N p p')
    (hready : p.isReady w = false) {k : Nat} {r : Machine H}
    (h : ComesToRest k ⟨w, [], .enter p⟩ r) : r = ⟨w, [], .pause p⟩ := by
  obtain ⟨j, hj⟩ := hp.enter_not_ready hready []
  rw [← h.iterate j, Function.iterate_add_apply, hj]
  exact Function.iterate_fixed rfl k

end Alike

/-! ## The clock -/

section Clock

variable {limit : Nat} {p : Paused H} {w v : World H} {now : Nat}

/-- The next of some timers, one of which is still to run out. -/
theorem nextTimer_spec {times : List Nat} {t : Nat} (ht : t ∈ times) (hlater : w.now < t) :
    ∃ d, w.nextTimer times = some d ∧ w.now < d ∧ d ∈ times ∧
      ∀ d' ∈ times, w.now < d' → d ≤ d' := by
  have hin : t ∈ times.filter (w.now < ·) := List.mem_filter.mpr ⟨ht, decide_eq_true hlater⟩
  cases hnext : w.nextTimer times with
  | none =>
    rw [List.min?_eq_none_iff.mp hnext] at hin
    cases hin
  | some d =>
    obtain ⟨hd, hleast⟩ := List.min?_eq_some_iff.mp hnext
    obtain ⟨hmem, hdue⟩ := List.mem_filter.mp hd
    refine ⟨d, rfl, of_decide_eq_true hdue, hmem, fun d' hd' hlt => ?_⟩
    exact hleast d' (List.mem_filter.mpr ⟨hd', decide_eq_true hlt⟩)

/-- When everything waits and nothing is left in the background, the clock jumps to the next timer
    at the latest at the limit. -/
theorem waitFor_cases (hback : w.runBackground.background = [])
    (hnow : w.runBackground.now = w.now) (hlimit : w.now < limit) :
    (p.isReady w.runBackground = true ∧ waitFor limit p w = w.runBackground) ∨
      (p.isReady w.runBackground = false ∧ ∃ t,
        waitFor limit p w = { w.runBackground with now := t } ∧ w.now < t ∧
        t ∈ limit :: p.deadlines ∧ ∀ d ∈ limit :: p.deadlines, w.now < d → t ≤ d) := by
  unfold waitFor
  dsimp only
  cases hready : p.isReady w.runBackground with
  | true => exact .inl ⟨rfl, if_pos rfl⟩
  | false =>
    have htimes : w.runBackground.backgroundDeadlines = [] := by
      rw [World.backgroundDeadlines, hback]
      rfl
    obtain ⟨t, ht, hlt, hmem, hleast⟩ := nextTimer_spec (w := w.runBackground)
      (List.mem_cons_self .. : limit ∈ limit :: p.deadlines) (hnow ▸ hlimit)
    rw [hnow] at hlt hleast
    refine .inr ⟨rfl, t, ?_, hlt, hmem, hleast⟩
    rw [if_neg Bool.false_ne_true, htimes, List.append_nil, ht]
    rfl

/-- A computation has been suspended in a world of its own. The clock of others has not passed the
    time at which it goes on there. -/
structure InTime (limit : Nat) (p : Paused H) (v : World H) (now : Nat) : Prop where
  later : v.now ≤ now
  due : v.now < now →
    p.isReady v = false ∧ ∀ t ∈ limit :: p.deadlines, v.now < t → now ≤ t

/-- The clock of others jumps. -/
theorem InTime.jump (h : InTime limit p v now) (hlimit : now < limit)
    (hready : p.isReady { v with now } = false) {t : Nat} (ht : now < t)
    (hleast : ∀ d ∈ limit :: p.deadlines, now < d → t ≤ d) : InTime limit p v t := by
  have hwaits : p.isReady v = false := by
    rcases Nat.eq_or_lt_of_le h.later with heq | hlt
    · subst heq
      exact hready
    · exact (h.due hlt).1
  refine ⟨Nat.le_trans h.later (Nat.le_of_lt ht), fun _ => ⟨hwaits, fun d hd _ => ?_⟩⟩
  refine hleast d hd (Nat.lt_of_not_le fun hle => ?_)
  rcases List.mem_cons.mp hd with rfl | hd
  · exact Nat.not_le_of_lt hlimit hle
  · have hdue := Paused.isReady_of_deadline (w := { v with now }) hle p hd
    rw [hready] at hdue
    cases hdue

/-- When the computation can go on by the clock of others, it goes on then when it waits alone. -/
theorem InTime.waitFor (h : InTime limit p v now) (hlimit : v.now < limit)
    (hready : p.isReady { v with now } = true) (hsame : p.isReady v.runBackground = p.isReady v)
    (hback : v.runBackground.background = []) (hnow : v.runBackground.now = v.now) :
    waitFor limit p v = { v.runBackground with now } := by
  rcases waitFor_cases (p := p) hback hnow hlimit with ⟨hr, heq⟩ | ⟨hr, t, heq, hlt, hmem, hleast⟩
  · have hpresent : v.now = now := by
      refine Nat.le_antisymm h.later (Nat.le_of_not_lt fun hlt => ?_)
      have hwaits := (h.due hlt).1
      rw [← hsame, hr] at hwaits
      cases hwaits
    rw [heq, ← hpresent, ← hnow]
  · rw [hsame] at hr
    have hlater : v.now < now := by
      refine Nat.lt_of_le_of_ne h.later fun heq => ?_
      subst heq
      rw [hr] at hready
      cases hready
    obtain ⟨-, hdue⟩ := h.due hlater
    obtain ⟨d, hd, hle⟩ := (p.isReady_at hready).resolve_left (by rw [hr]; exact Bool.false_ne_true)
    have hfuture : v.now < d := by
      refine Nat.lt_of_not_le fun hpast => ?_
      rw [p.isReady_of_deadline hpast hd] at hr
      cases hr
    have ht : t = now := Nat.le_antisymm
      (Nat.le_trans (hleast d (List.mem_cons_of_mem _ hd) hfuture) hle) (hdue t hmem hlt)
    rw [heq, ht]

end Clock

end BootEngine.Work
