import BootEngine.Proofs.Work.Abreast

/-!
# Passes over a join

A pass looks at the branches of the join in their order. Each turn keeps a branch abreast of the
same branch alone, and so does a whole pass and a whole run; the branch may come to its end before
the others. Only a panic of another branch can cut it off before.

Contents:
* `Abreast.turn`: a turn of any branch.
* `Passed`, `sweep`: how a pass comes to rest.
* `drive_abreast`: a whole run.
-/

namespace BootEngine.Work

open Transaction (Terminal Handle Source Event)

variable {H : Host}

section Turn

variable {s : Setting H} {passes : Nat} {T : List (Heard H)} {w v : World H}
  {N F : Pairing} {k : Nat} {r : Machine H} {b : Branch H (Paused H)} {f : Focus H}
  {done rest : List (Branch H (Paused H))}

theorem getElem?_turn : (done.reverse ++ b :: rest)[done.length]? = some b := by
  rw [List.getElem?_append_right (Nat.le_of_eq List.length_reverse), List.length_reverse,
    Nat.sub_self]
  rfl

theorem set_turn (c : Branch H (Paused H)) :
    (done.reverse ++ b :: rest).set done.length c = (c :: done).reverse ++ rest := by
  rw [List.set_append_right _ _ (Nat.le_of_eq List.length_reverse), List.length_reverse,
    Nat.sub_self, List.reverse_cons, List.append_assoc]
  rfl

theorem decide_looked {i n : Nat} (h : n ≠ i) : decide (i < n + 1) = decide (i < n) :=
  decide_eq_decide.mpr ⟨fun hlt => Nat.lt_of_le_of_ne (Nat.le_of_lt_succ hlt) h.symm,
    Nat.lt_succ_of_lt⟩

/-- Any branch has its turn. -/
theorem Abreast.turn (hfair : s.IsFair)
    (h : Abreast s passes (decide (s.index < done.length)) T w (done.reverse ++ b :: rest) N F v)
    (hf : b.focus? = some f) (hrest : ComesToRest k ⟨w, [], f⟩ r) (hk : k ≤ s.fuel)
    (hroom : r.world.requests ≤ s.permits) :
    ∃ T' N' F' v', Abreast s passes (decide (s.index < done.length + 1)) T' r.world
        ((r.focus.settled :: done).reverse ++ rest) N' F' v' ∧
      ∀ fuel, T ++ ((⟨w, [], f⟩ : Machine H).under (turnLayers done rest)).hears s.index
          (k + (fuel + 1)) =
        T' ++ ((r.under (turnLayers done rest)).step).hears s.index fuel := by
  by_cases hindex : done.length = s.index
  · -- the branch itself
    have hb : (done.reverse ++ b :: rest)[s.index]? = some b := hindex ▸ getElem?_turn
    rw [decide_eq_false (Nat.not_lt_of_le (Nat.le_of_eq hindex))] at h
    obtain ⟨N', v', hturn⟩ := h.ownTurn hfair hb hf hrest hk hroom
    refine ⟨T ++ (w.since r.world).map .wrote ++ r.focus.lastHeard, N', F, v', ?_, fun fuel => ?_⟩
    · rw [decide_eq_true (Nat.lt_succ_of_le (Nat.le_of_eq hindex.symm)), ← set_turn (b := b),
        hindex]
      exact hturn
    · rw [h.hears_own hfair hb hf hrest hroom hindex, hears_succ,
        heard_last hindex hrest.isAtRest]
      simp only [List.append_assoc]
  · obtain ⟨F', hturn⟩ := h.theirTurn hfair hindex getElem?_turn hf hrest hroom
    refine ⟨T, N, F', v, ?_, fun fuel => ?_⟩
    · rw [decide_looked hindex, ← set_turn (b := b)]
      exact hturn
    · rw [hrest.hears_other hindex, hears_succ, heard_other _ hindex, List.nil_append]

/-- A branch that has ended is passed over. -/
theorem Abreast.skip
    (h : Abreast s passes (decide (s.index < done.length)) T w (done.reverse ++ .finished :: rest)
      N F v) :
    Abreast s passes (decide (s.index < (Branch.finished :: done).length)) T w
      ((.finished :: done).reverse ++ rest) N F v := by
  have hitems : done.reverse ++ .finished :: rest = (.finished :: done).reverse ++ rest := by
    rw [List.reverse_cons, List.append_assoc]
    rfl
  rw [← hitems, List.length_cons]
  by_cases hindex : done.length = s.index
  · rw [decide_eq_true (Nat.lt_succ_of_le (Nat.le_of_eq hindex.symm))]
    exact h.pass (hindex ▸ getElem?_turn)
  · rw [decide_looked hindex]
    exact h

theorem visit_turn (hf : b.focus? = some f) :
    visit w [.frame joinFrame] 0 done (b :: rest) =
      (⟨w, [], f⟩ : Machine H).under (turnLayers done rest) := by
  cases b <;> cases hf <;> rfl

end Turn

/-! ## A pass -/

section Pass

variable {s : Setting H} {passes : Nat} {looked : Bool} {T : List (Heard H)} {w v : World H}
  {items : List (Branch H (Paused H))} {N F : Pairing}

/-- The branch has come to its end, here and in the run alone. -/
structure Concluded (s : Setting H) (passes : Nat) (T : List (Heard H)) (w : World H)
    (N F : Pairing) (v : World H) (verdict : Verdict H) : Prop where
  shared : Shared s T w N F v
  alone : s.alone passes = (v, verdict)
  fate : fatesOf T = [verdict]

/-- The branch has come to its end if that has been heard. -/
theorem Abreast.finished_of_heard (h : Abreast s passes looked T w items N F v)
    (hheard : fatesOf T ≠ []) : items[s.index]? = some .finished := by
  obtain ⟨b, hb, hstanding⟩ := h.standing
  cases hstanding with
  | idle hv hlooked hnow hfates htied => exact absurd hfates hheard
  | paused before hpasses halone hlike htime hearly hfates => exact absurd hfates hheard
  | finished verdict halone hfates => exact hb

theorem Abreast.concluded (h : Abreast s passes looked T w items N F v)
    (hown : items[s.index]? = some .finished) {total : Nat}
    (htotal : passes + looked.toNat ≤ total) : ∃ verdict, Concluded s total T w N F v verdict := by
  obtain ⟨b, hb, hstanding⟩ := h.standing
  obtain rfl := Option.some.inj (hb.symm.trans hown)
  cases hstanding with
  | finished verdict halone hfates =>
    exact ⟨verdict, h.shared, halone total htotal, hfates⟩

/-- Once the branch has come to its end, all that goes on belongs to the others. -/
theorem Abreast.theirs_of_finished (h : Abreast s passes looked T w items N F v)
    (hown : items[s.index]? = some .finished) :
    ∀ b ∈ items, ∀ f, b.focus? = some f → FocusLike s.theirs F f f := by
  intro b hb f hf
  obtain ⟨j, hj⟩ := List.mem_iff_getElem?.mp hb
  by_cases hindex : j = s.index
  · subst hindex
    obtain rfl := Option.some.inj (hj.symm.trans hown)
    cases hf
  · exact h.others j b hindex hj f hf

/-- A world that is left while the branch has not come to its end, or after that. -/
def Leftover (s : Setting H) (passes : Nat) (T : List (Heard H)) (w : World H) : Prop :=
  fatesOf T = [] ∨ ∃ items N F v, Abreast s passes true T w items N F v ∧
    items[s.index]? = some .finished

theorem Abreast.leftover (h : Abreast s passes looked T w items N F v) :
    Leftover s passes T w := by
  by_cases hheard : fatesOf T = []
  · exact .inl hheard
  · have hown := h.finished_of_heard hheard
    exact .inr ⟨items, N, F, v, h.pass hown, hown⟩

/-- What has come of a pass over the join. -/
inductive Passed (s : Setting H) (passes : Nat) (T : List (Heard H)) : Machine H → Prop
  /-- Some branches wait. -/
  | waits {w v : World H} {items : List (Branch H (Paused H))} {N F : Pairing}
      (h : Abreast s passes true T w items N F v) :
      Passed s passes T ⟨w, [], .pause (.under joinFrame (.branches 0 items))⟩
  /-- All branches have ended. -/
  | ended {w v : World H} {items : List (Branch H (Paused H))} {N F : Pairing}
      (outcome : Outcome H) (h : Abreast s passes true T w items N F v)
      (hown : items[s.index]? = some .finished) : Passed s passes T ⟨w, [], .finish outcome⟩
  /-- A branch has panicked. -/
  | panicked {w : World H} (h : Leftover s passes T w) : Passed s passes T ⟨w, [], .unwind⟩
  /-- The pass has not come to its end. -/
  | restless {m : Machine H} (hm : m.isAtRest = false) (h : Leftover s passes T m.world) :
      Passed s passes T m

end Pass

section Sweep

variable {s : Setting H} {passes : Nat} {T : List (Heard H)} {w v : World H}
  {N F : Pairing} {m : Machine H} {done todo : List (Branch H (Paused H))} {i : Nat}

theorem hears_of_isAtRest (h : m.isAtRest = true) (fuel : Nat) : m.hears i fuel = [] := by
  cases fuel with
  | zero => rfl
  | succ fuel => rw [Machine.hears, if_pos h]

/-- While nobody has a turn, nothing is heard of a branch. -/
theorem ComesToRest.idle {k : Nat} {r : Machine H} (hrest : ComesToRest k m r)
    (hidle : ∀ j < k, (Machine.step^[j] m).turn? = none ∧ (Machine.step^[j] m).world = w)
    (fuel : Nat) : m.hears i fuel = [] ∧ (m.settleWithin fuel = r ∨
      ((m.settleWithin fuel).isAtRest = false ∧ (m.settleWithin fuel).world = w)) := by
  induction hrest generalizing fuel with
  | rest h =>
    exact ⟨hears_of_isAtRest h fuel, .inl ((ComesToRest.rest h).settleWithin (Nat.zero_le fuel))⟩
  | @step k m r h hs ih =>
    obtain ⟨hturn, hworld⟩ := hidle 0 (Nat.succ_pos _)
    cases fuel with
    | zero => exact ⟨rfl, .inr ⟨h, hworld⟩⟩
    | succ fuel =>
      have hheard : m.heard i = [] := by
        rw [Machine.heard, show m.turn? = none from hturn]
      rw [Machine.hears, h, if_neg Bool.false_ne_true, hheard, List.nil_append,
        Machine.settleWithin, h, if_neg Bool.false_ne_true]
      exact ih (fun j hj => hidle (j + 1) (Nat.succ_lt_succ hj)) fuel

/-- What comes of a pass does not change while nobody has a turn. -/
theorem Passed.idle {k : Nat} {r : Machine H} (h : Passed s passes T r) (hrest : ComesToRest k m r)
    (hidle : ∀ j < k, (Machine.step^[j] m).turn? = none ∧ (Machine.step^[j] m).world = w)
    (hleft : Leftover s passes T w) (fuel : Nat) :
    Passed s passes (T ++ m.hears s.index fuel) (m.settleWithin fuel) := by
  obtain ⟨hheard, hsettled | ⟨hrestless, hworld⟩⟩ := hrest.idle (i := s.index) hidle fuel
  · rw [hheard, List.append_nil, hsettled]
    exact h
  · rw [hheard, List.append_nil]
    refine .restless hrestless ?_
    rw [hworld]
    exact hleft

/-- All branches have been looked at. -/
theorem Abreast.looked (h : Abreast s passes true T w done.reverse N F v) (fuel : Nat) :
    Passed s passes (T ++ (visit w [.frame joinFrame] 0 done []).hears s.index fuel)
      ((visit w [.frame joinFrame] 0 done []).settleWithin fuel) := by
  rw [visit_nil]
  split
  · next hall =>
    have hown : (done.reverse)[s.index]? = some .finished := by
      obtain ⟨b, hb, -⟩ := h.standing
      have hended := List.all_eq_true.mp hall b (List.mem_reverse.mp (List.mem_of_getElem? hb))
      rw [hb]
      cases b <;> first | rfl | cases hended
    have hrest : ComesToRest 2 (⟨w, [.frame joinFrame], .finish (.ok .null)⟩ : Machine H)
        ⟨w, [], .finish (.ok .null)⟩ := .step rfl (.step rfl (.rest rfl))
    refine (Passed.ended _ h hown).idle hrest (fun j hj => ?_) h.leftover fuel
    match j, hj with
    | 0, _ => exact ⟨rfl, rfl⟩
    | 1, _ => exact ⟨rfl, rfl⟩
  · have hrest : ComesToRest 1 (⟨w, [.frame joinFrame], .pause (.branches 0 done.reverse)⟩ :
        Machine H) ⟨w, [], .pause (.under joinFrame (.branches 0 done.reverse))⟩ :=
      .step rfl (.rest rfl)
    refine (Passed.waits h).idle hrest (fun j hj => ?_) h.leftover fuel
    obtain rfl := Nat.lt_one_iff.mp hj
    exact ⟨rfl, rfl⟩

/-- A panic of one branch drops all others. -/
theorem Abreast.unwound (hfair : s.IsFair) {looked : Bool}
    (h : Abreast s passes looked T w ((.finished :: done).reverse ++ todo) N F v) (fuel : Nat) :
    Passed s passes
      (T ++ (⟨Paused.abandonAll (done.reverse ++ todo) w, [.frame joinFrame], .unwind⟩ :
        Machine H).hears s.index fuel)
      ((⟨Paused.abandonAll (done.reverse ++ todo) w, [.frame joinFrame], .unwind⟩ :
        Machine H).settleWithin fuel) := by
  have hleft : Leftover s passes T (Paused.abandonAll (done.reverse ++ todo) w) := by
    by_cases hheard : fatesOf T = []
    · exact .inl hheard
    · have hown := h.finished_of_heard hheard
      refine .inr ⟨_, N, F, v, (h.pass hown).drop hfair fun c hc => h.theirs_of_finished hown c ?_,
        hown⟩
      rw [List.reverse_cons, List.append_assoc]
      rcases List.mem_append.mp hc with hc | hc
      · exact List.mem_append_left _ hc
      · exact List.mem_append_right _ (List.mem_cons_of_mem _ hc)
  generalize Paused.abandonAll (done.reverse ++ todo) w = w' at hleft ⊢
  have hrest : ComesToRest 1 (⟨w', [.frame joinFrame], .unwind⟩ : Machine H) ⟨w', [], .unwind⟩ :=
    .step rfl (.rest rfl)
  refine (Passed.panicked hleft).idle hrest (fun j hj => ?_) hleft fuel
  obtain rfl := Nat.lt_one_iff.mp hj
  exact ⟨rfl, rfl⟩

/-- The pass does not get further than the turn of a branch. -/
theorem Abreast.restless (hfair : s.IsFair) {b : Branch H (Paused H)} {f : Focus H} {fuel : Nat}
    (h : Abreast s passes (decide (s.index < done.length)) T w (done.reverse ++ b :: todo) N F v)
    (hf : b.focus? = some f)
    (hmoves : ∀ j < fuel, (Machine.step^[j] (⟨w, [], f⟩ : Machine H)).isAtRest = false)
    (hroom : ((⟨w, [], f⟩ : Machine H).settleWithin fuel).world.requests ≤ s.permits) :
    Leftover s passes
      (T ++ ((⟨w, [], f⟩ : Machine H).under (turnLayers done todo)).hears s.index fuel)
      ((⟨w, [], f⟩ : Machine H).settleWithin fuel).world := by
  obtain ⟨hfates, hnone⟩ := hears_restless done todo s.index hmoves
  by_cases hheard : fatesOf T = []
  · refine .inl ?_
    rw [fatesOf, List.filterMap_append, hfates]
    exact (List.append_nil _).trans hheard
  · have hown := h.finished_of_heard hheard
    have hindex : done.length ≠ s.index := by
      intro heq
      rw [← heq, getElem?_turn, Option.some_inj] at hown
      subst hown
      cases hf
    have hm : MachineLike s.theirs s.permits ⟨F, w, w⟩ F ⟨w, [], f⟩ ⟨w, [], f⟩ :=
      ⟨h.shared.theirs.alike rfl, .nil, h.others _ _ hindex getElem?_turn f hf⟩
    obtain ⟨F', hF, hmid⟩ := hm.settleWithin hfair.theirs fuel hroom
    have hafter := h.move hfair hmid.world rfl
      fun j c hj hc g hg => (h.others j c hj hc g hg).mono hF
    rw [hnone hindex, List.append_nil]
    exact hafter.leftover

/-- What comes of a pass over what is left of the join, and what is heard in it. -/
theorem sweep (hfair : s.IsFair) {fuel : Nat}
    (h : Abreast s passes (decide (s.index < done.length)) T w (done.reverse ++ todo) N F v)
    (hfuel : fuel ≤ s.fuel)
    (hroom : ((visit w [.frame joinFrame] 0 done todo).settleWithin fuel).world.requests ≤
      s.permits) :
    Passed s passes (T ++ (visit w [.frame joinFrame] 0 done todo).hears s.index fuel)
      ((visit w [.frame joinFrame] 0 done todo).settleWithin fuel) := by
  induction todo generalizing done w T N F v fuel with
  | nil =>
    rw [List.append_nil] at h
    have hlooked : s.index < done.length := by
      obtain ⟨b, hb, -⟩ := h.standing
      have hlt := (List.getElem?_eq_some_iff.mp hb).1
      rwa [List.length_reverse] at hlt
    rw [decide_eq_true hlooked] at h
    exact h.looked fuel
  | cons b rest ih =>
    cases hf : b.focus? with
    | none =>
      obtain rfl : b = .finished := by cases b <;> first | rfl | cases hf
      exact ih h.skip hfuel hroom
    | some f =>
      rw [visit_turn hf] at hroom ⊢
      rcases comesToRest_or done rest fuel ⟨w, [], f⟩ with ⟨k, r, hturn, hk⟩ | ⟨hsettle, hmoves⟩
      · obtain ⟨left, rfl⟩ := Nat.exists_eq_add_of_lt hk
        rw [Nat.add_assoc, hturn.settleWithin_under, settleWithin_succ_under] at hroom ⊢
        have hbefore : r.world.requests ≤ s.permits :=
          Nat.le_trans (requests_step (r.under (turnLayers done rest)))
            (Nat.le_trans (requests_settleWithin left _) hroom)
        obtain ⟨T', N', F', v', hafter, hheard⟩ := h.turn hfair hf hturn (by omega) hbefore
        rw [hheard left]
        have hleft : left ≤ s.fuel := by omega
        have hend := hturn.isAtRest
        obtain ⟨w₁, layers, g⟩ := r
        cases layers with
        | cons _ _ => cases g <;> cases hend
        | nil =>
          cases g with
          | enter p => cases hend
          | exec u value steps => cases hend
          | finish outcome => exact ih (hafter.note hfair rfl) hleft hroom
          | pause p => exact ih hafter hleft hroom
          | unwind => exact hafter.unwound hfair left
      · rw [hsettle] at hroom ⊢
        exact .restless (Machine.isAtRest_under ..) (h.restless hfair hf hmoves hroom)

end Sweep

/-! ## A whole run -/

section Drive

variable {s : Setting H} {passes : Nat} {T : List (Heard H)} {w v : World H} {N F : Pairing}
  {focus : Focus H} {items : List (Branch H (Paused H))}

/-- The focus of a run that looks at the branches of the join first, if it gets so far. -/
def Opens (i : Nat) (w : World H) (focus : Focus H) (items : List (Branch H (Paused H))) : Prop :=
  ∀ fuel, (∃ left ≤ fuel, pass fuel w focus =
        (visit w [.frame joinFrame] 0 [] items).settleWithin left ∧
      (⟨w, [], focus⟩ : Machine H).hears i fuel =
        (visit w [.frame joinFrame] 0 [] items).hears i left) ∨
    ((pass fuel w focus).isAtRest = false ∧ (pass fuel w focus).world = w ∧
      (⟨w, [], focus⟩ : Machine H).hears i fuel = [])

/-- A program that consists of a join. -/
theorem opens_first (i : Nat) (w : World H) (branches : List (List (Step H))) :
    Opens i w (.exec 0 .null [.join branches]) (branches.map .idle) := by
  intro fuel
  cases fuel with
  | zero => exact .inr ⟨rfl, rfl, rfl⟩
  | succ fuel => exact .inl ⟨fuel, Nat.le_succ fuel, rfl, rfl⟩

/-- A join that waits. -/
theorem opens_again (i : Nat) (w : World H) (items : List (Branch H (Paused H))) :
    Opens i w (.enter (.under joinFrame (.branches 0 items))) items := by
  intro fuel
  match fuel with
  | 0 => exact .inr ⟨rfl, rfl, rfl⟩
  | 1 => exact .inr ⟨rfl, rfl, rfl⟩
  | fuel + 2 => exact .inl ⟨fuel, Nat.le_add_right fuel 2, rfl, rfl⟩

/-- What comes of a pass. -/
theorem Opens.passed (hopens : Opens s.index w focus items) (hfair : s.IsFair)
    (h : Abreast s passes false T w items N F v)
    (hroom : (pass s.fuel w focus).world.requests ≤ s.permits) :
    Passed s passes (T ++ (⟨w, [], focus⟩ : Machine H).hears s.index s.fuel)
      (pass s.fuel w focus) := by
  rcases hopens s.fuel with ⟨left, hleft, hsettled, hheard⟩ | ⟨hrestless, hworld, hheard⟩
  · rw [hsettled] at hroom ⊢
    rw [hheard]
    have hstart : Abreast s passes (decide (s.index < ([] : List (Branch H (Paused H))).length)) T w
        (([] : List (Branch H (Paused H))).reverse ++ items) N F v := by
      rw [List.length_nil, decide_eq_false (Nat.not_lt_zero _)]
      exact h
    exact sweep hfair hstart hleft hroom
  · refine .restless hrestless ?_
    rw [hheard, List.append_nil, hworld]
    exact h.leftover

/-- If a run has not ended when it stops, but the end of the branch has been heard, the branch came
    to its end before. -/
theorem Leftover.concluded (h : Leftover s passes T w) {joint : World H × Verdict H}
    (hstop : ∀ outcome, joint.2 ≠ .ended outcome)
    (hends : (∃ outcome, joint.2 = .ended outcome) ∨ fatesOf (T ++ []) ≠ []) {total : Nat}
    (htotal : passes + 1 ≤ total) :
    ∃ N F v verdict, Concluded s total (T ++ []) w N F v verdict := by
  rw [List.append_nil] at hends ⊢
  rcases h with hnone | ⟨items, N, F, v, h, hown⟩
  · rcases hends with ⟨outcome, hended⟩ | hheard
    · exact absurd hended (hstop outcome)
    · exact absurd hnone hheard
  · exact ⟨N, F, v, h.concluded hown htotal⟩

/-- In a whole run the branch comes to its end as it does alone. -/
theorem drive_abreast (hfair : s.IsFair) {left : Nat} (hopens : Opens s.index w focus items)
    (h : Abreast s passes false T w items N F v)
    (hroom : (drive s.limit s.fuel left w focus).1.requests ≤ s.permits)
    (hends : (∃ outcome, (drive s.limit s.fuel left w focus).2 = .ended outcome) ∨
      fatesOf (T ++ transcript s.index s.limit s.fuel left w focus) ≠ []) :
    ∃ N' F' v' verdict, Concluded s (passes + left)
      (T ++ transcript s.index s.limit s.fuel left w focus)
      (drive s.limit s.fuel left w focus).1 N' F' v' verdict := by
  induction left generalizing passes focus items T w N F v with
  | zero =>
    rw [transcript, List.append_nil] at hends ⊢
    rcases hends with ⟨outcome, hended⟩ | hheard
    · cases hended
    · exact ⟨N, F, v, h.concluded (h.finished_of_heard hheard) (Nat.le_refl _)⟩
  | succ left ih =>
    have hpassed := hopens.passed hfair h (Nat.le_trans (requests_pass ..) hroom)
    have htotal : passes + 1 ≤ passes + (left + 1) :=
      Nat.add_le_add_left (Nat.succ_le_succ (Nat.zero_le left)) passes
    rw [transcript, ← List.append_assoc] at hends ⊢
    rw [drive] at hroom hends ⊢
    generalize T ++ (⟨w, [], focus⟩ : Machine H).hears s.index s.fuel = T' at hpassed hends ⊢
    generalize pass s.fuel w focus = m at hpassed hroom hends ⊢
    cases hpassed with
    | @waits w v items N F h =>
      dsimp only at hroom hends ⊢
      by_cases hlimit : s.limit ≤ w.now
      · -- the time is over, and what is left of the join is dropped
        rw [if_pos hlimit, if_pos hlimit] at hends ⊢
        rw [List.append_nil] at hends ⊢
        rcases hends with ⟨outcome, hended⟩ | hheard
        · cases hended
        · have hown := h.finished_of_heard hheard
          have hdropped := h.drop hfair (h.theirs_of_finished hown)
          exact ⟨N, F, v, hdropped.concluded hown htotal⟩
      · rw [if_neg hlimit] at hroom
        rw [if_neg hlimit, if_neg hlimit] at hends ⊢
        rw [← Nat.succ_add_eq_add_succ]
        exact ih (opens_again _ _ _) (h.wait hfair (Nat.lt_of_not_le hlimit)) hroom hends
    | ended outcome h hown =>
      dsimp only
      rw [List.append_nil]
      exact ⟨_, _, _, h.concluded hown htotal⟩
    | panicked h => exact h.concluded (fun _ hended => by cases hended) hends htotal
    | @restless m hm h =>
      obtain ⟨w, layers, g⟩ := m
      cases layers with
      | cons layer layers => exact h.concluded (fun _ hended => by cases hended) hends htotal
      | nil =>
        cases g with
        | enter p => exact h.concluded (fun _ hended => by cases hended) hends htotal
        | exec u value steps => exact h.concluded (fun _ hended => by cases hended) hends htotal
        | finish outcome => cases hm
        | unwind => cases hm
        | pause p => cases hm

end Drive

end BootEngine.Work
