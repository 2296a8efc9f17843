import BootEngine.Proofs.Work.Balance

/-!
# What the order of the marks tells

Marks come in order. A scope of a unit that is used in order asks for a transaction when all scopes
that asked before have left. A call that ends a transaction is made after the end of its work, and
no such call is made before it. Effects start after the commit.

Contents:
* `Mark.IsTimely`, `Timely`: the order.
* `Timely.opener`: a transaction is opened once.
* `exists_mark`, `account_of_suffix`: what an account tells comes with a mark, or stays.
* `exists_workEnded`, `failed_iff`, `dropped_iff` and the like: what an account tells, said of the
  marks.
* `History`, `History.act`: the order together with the counts, and every act keeps it.
-/

namespace BootEngine.Work

open Transaction (Terminal Handle Context)

variable {H : Host} {T D : UnitId → Prop}

/-! ## Order -/

/-- The transaction is one of the unit; if the unit is used in order, its work goes on. -/
def IsAtWork (T : UnitId → Prop) (u : UnitId) (h : Handle) (marks : List (Mark H)) : Prop :=
  (account h marks).opener = some u ∧ (T u → (account h marks).course = {})

/-- A mark comes at the right time after older ones. -/
def Mark.IsTimely (T : UnitId → Prop) (older : List (Mark H)) : Mark H → Prop
  | .requested u => T u → left u older = asked u older
  | .opened _ h => (account h older).opener = none
  | .nestedBegun u h => IsAtWork T u h older
  | .nestedEnded u h _ => IsAtWork T u h older
  | .deferred u h _ => IsAtWork T u h older
  | .unserved u e => (∃ reason, e = .beginFailed reason) ∨ (∃ ms, e = .acquireTimeout ms) ∨
      e = .cancelled ∧ .cancelled u ∈ older
  | .workEnded u h _ stopped => (account h older).opener = some u ∧
      (stopped = true ↔ .cancelled u ∈ older)
  | .strayed u h => (account h older).opener = some u
  | .interrupted u h => (account h older).opener = some u
  | .ending _ h => ∀ u, (account h older).opener = some u → Regular u older →
      (account h older).course.work ≠ none ∧ (account h older).course.calls = [] ∧
        (T u → (account h older).running = 0)
  | .effectStarted u h index effect => (account h older).opener = some u ∧ (Regular u older →
      (account h older).course.answers = [(.commit, none)] ∧
        index = (account h older).course.started.length ∧
          (¬ IsMixed u older → (account h older).deferred[index]? = some effect))
  | _ => True

/-- All marks come at the right time. -/
def Timely (T : UnitId → Prop) : List (Mark H) → Prop
  | [] => True
  | m :: older => m.IsTimely T older ∧ Timely T older

section Order

variable {m : Mark H} {marks older : List (Mark H)}

theorem Timely.cons (hm : m.IsTimely T older) (ho : Timely T older) : Timely T (m :: older) :=
  ⟨hm, ho⟩

theorem Timely.of_suffix (ht : Timely T marks) (hs : older <:+ marks) : Timely T older := by
  induction marks with
  | nil => rwa [List.suffix_nil.mp hs]
  | cons m' rest ih =>
    rcases List.suffix_cons_iff.mp hs with rfl | hs
    · exact ht
    · exact ih ht.2 hs

/-- Each mark comes at the right time after those before it. -/
theorem Timely.at (ht : Timely T marks) (hs : m :: older <:+ marks) : m.IsTimely T older :=
  (ht.of_suffix hs).1

/-- A transaction is opened once. -/
theorem Timely.opener (ht : Timely T marks) (hs : older <:+ marks) {u : UnitId} {h : Handle}
    (ho : (account h older).opener = some u) : (account h marks).opener = some u := by
  induction marks with
  | nil => rwa [← List.suffix_nil.mp hs]
  | cons m' rest ih =>
    rcases List.suffix_cons_iff.mp hs with rfl | hs
    · exact ho
    · have hrest := ih ht.2 hs
      by_cases hm : m'.handle? = some h
      · rw [account_cons_self _ hm]
        cases m' with
        | opened v h' =>
          obtain rfl : h' = h := Option.some.inj hm
          have hnone : (account h' rest).opener = none := ht.1
          rw [hnone] at hrest
          cases hrest
        | _ => exact hrest
      · rwa [account_cons_of_ne _ hm]

end Order

/-! ## Accounts and marks -/

section Behind

variable {h : Handle} {marks : List (Mark H)}

/-- What an account tells, and does not tell at first, has come with some mark. -/
theorem exists_mark {P : Account H → Prop} (hfirst : ¬ P {}) (hp : P (account h marks)) :
    ∃ m older, m :: older <:+ marks ∧ m.handle? = some h ∧ P ((account h older).note m) ∧
      ¬ P (account h older) := by
  induction marks with
  | nil => exact absurd hp hfirst
  | cons m rest ih =>
    by_cases hrest : P (account h rest)
    · obtain ⟨m', older, hsuffix, hmark⟩ := ih hrest
      exact ⟨m', older, hsuffix.trans (List.suffix_cons m rest), hmark⟩
    · by_cases hh : m.handle? = some h
      · rw [account_cons_self _ hh] at hp
        exact ⟨m, rest, List.suffix_refl _, hh, hp, hrest⟩
      · rw [account_cons_of_ne _ hh] at hp
        exact absurd hp hrest

/-- What an account tells, and no mark takes back, it tells for ever. -/
theorem account_of_suffix {P : Account H → Prop} {older : List (Mark H)}
    (hkeep : ∀ m a, m.handle? = some h → P a → P (a.note m)) (hs : older <:+ marks)
    (hp : P (account h older)) : P (account h marks) := by
  induction marks with
  | nil => rwa [← List.suffix_nil.mp hs]
  | cons m rest ih =>
    rcases List.suffix_cons_iff.mp hs with rfl | hs
    · exact hp
    · have hrest := ih hs
      by_cases hh : m.handle? = some h
      · rw [account_cons_self _ hh]
        exact hkeep m _ hh hrest
      · rwa [account_cons_of_ne _ hh]

theorem exists_suffix_of_mem {m : Mark H} (hm : m ∈ marks) : ∃ older, m :: older <:+ marks := by
  obtain ⟨newer, older, hsplit⟩ := List.append_of_mem hm
  exact ⟨older, newer, hsplit.symm⟩

theorem mem_of_opener {u : UnitId} (ho : (account h marks).opener = some u) :
    .opened u h ∈ marks := by
  obtain ⟨m, older, hsuffix, hh, hp, hn⟩ :=
    exists_mark (P := fun a => a.opener = some u) (fun hf => nomatch hf) ho
  cases m with
  | opened v h' =>
    obtain rfl : v = u := Option.some.inj hp
    obtain rfl : h' = h := Option.some.inj hh
    exact hsuffix.mem (List.mem_cons_self ..)
  | _ => exact absurd hp hn

/-- A flag that one mark sets has been set if this mark has been written down. -/
theorem flag_iff {F : Course H → Bool} {k : Mark H} (hk : k.handle? = some h)
    (hfirst : F {} = false) (hset : ∀ c : Course H, F (c.note k) = true)
    (hother : ∀ (m : Mark H) c, m.handle? = some h → m ≠ k → F (c.note m) = F c) :
    F (account h marks).course = true ↔ k ∈ marks := by
  constructor
  · intro hf
    obtain ⟨m, older, hsuffix, hh, hp, hn⟩ :=
      exists_mark (P := fun a => F a.course = true) (ne_true_of_eq_false hfirst) hf
    by_cases hm : m = k
    · exact hsuffix.mem (hm ▸ List.mem_cons_self ..)
    · rw [Account.course_note, hother m _ hh hm] at hp
      exact absurd hp hn
  · intro hm
    obtain ⟨older, hsuffix⟩ := exists_suffix_of_mem hm
    refine account_of_suffix (P := fun a => F a.course = true) ?_ hsuffix ?_
    · intro m a hh ha
      by_cases hm : m = k
      · rw [hm]
        exact hset _
      · rw [Account.course_note, hother m _ hh hm]
        exact ha
    · rw [account_cons_self _ hk]
      exact hset _

/-- A transaction has been given up if that has been written down. -/
theorem lost_iff : (account h marks).course.lost = true ↔ .lost h ∈ marks := by
  refine flag_iff (F := Course.lost) rfl rfl (fun _ => rfl) fun m c hh hm => ?_
  cases m with
  | lost h' => exact absurd (congrArg Mark.lost (Option.some.inj hh)) hm
  | _ => rfl

/-- A call on a transaction has been dropped if that has been written down. -/
theorem dropped_iff : (account h marks).course.dropped = true ↔ .callDropped h ∈ marks := by
  refine flag_iff (F := Course.dropped) rfl rfl (fun _ => rfl) fun m c hh hm => ?_
  cases m with
  | callDropped h' => exact absurd (congrArg Mark.callDropped (Option.some.inj hh)) hm
  | _ => rfl

theorem strayed_of_mem {u : UnitId} (hm : .strayed u h ∈ marks) :
    (account h marks).course.strayed = true := by
  obtain ⟨older, hsuffix⟩ := exists_suffix_of_mem hm
  refine account_of_suffix (P := fun a => a.course.strayed = true) ?_ hsuffix ?_
  · intro m a _ ha
    cases m <;> first | exact ha | rfl
  · rw [account_cons_self _ rfl]
    rfl

/-- The end of the work on a transaction has been written down. -/
theorem exists_workEnded {outcome : Outcome H} {cancelled : Bool}
    (hw : (account h marks).course.work = some (some (outcome, cancelled))) :
    ∃ u older, .workEnded u h outcome cancelled :: older <:+ marks := by
  obtain ⟨m, older, hsuffix, hh, hp, hn⟩ :=
    exists_mark (P := fun a => a.course.work = some (some (outcome, cancelled)))
      (fun hf => nomatch hf) hw
  cases m with
  | workEnded u h' outcome' cancelled' =>
    simp only [Account.note, Course.note, Option.some.injEq, Prod.mk.injEq] at hp
    obtain ⟨rfl, rfl⟩ := hp
    obtain rfl : h' = h := Option.some.inj hh
    exact ⟨u, older, hsuffix⟩
  | interrupted => simp [Account.note, Course.note] at hp
  | _ => exact absurd hp hn

/-- A nested scope has failed if its end, while the work went on, has been written down. -/
theorem failed_iff : (account h marks).failed = true ↔
    ∃ u outcome older, .nestedEnded u h outcome :: older <:+ marks ∧
      (account h older).course.work = none ∧ endedWell outcome = false := by
  constructor
  · intro hf
    obtain ⟨m, older, hsuffix, hh, hp, hn⟩ :=
      exists_mark (P := fun a => a.failed = true) (fun hf => nomatch hf) hf
    cases m with
    | nestedEnded u h' outcome =>
      obtain rfl : h' = h := Option.some.inj hh
      have hended := (Bool.or_eq_true_iff.mp hp).resolve_left hn
      rw [Bool.and_eq_true, Option.isNone_iff_eq_none, Bool.not_eq_true'] at hended
      exact ⟨u, outcome, older, hsuffix, hended⟩
    | _ => exact absurd hp hn
  · rintro ⟨u, outcome, older, hsuffix, hwork, hended⟩
    refine account_of_suffix (P := fun a => a.failed = true) ?_ hsuffix ?_
    · intro m a _ ha
      cases m with
      | nestedEnded => exact Bool.or_eq_true_iff.mpr (.inl ha)
      | _ => exact ha
    · rw [account_cons_self _ rfl]
      show (_ || _ && _) = true
      rw [hwork, hended, Option.isNone_none, Bool.not_false, Bool.and_true, Bool.or_true]

end Behind

/-! ## Acts -/

/-- Everything that is kept about the marks of a run. -/
structure History (T : UnitId → Prop) (l : Ledger H) : Prop where
  balance : ∀ u, Balance u l
  timely : Timely T l.marks
  /-- A unit has been cancelled if that has been written down. -/
  cancelled : ∀ u, l.cancelled u = true ↔ .cancelled u ∈ l.marks
  /-- Nothing is given up as long as something can run in the background. -/
  kept : l.hasRuntime = true → ∀ h, .lost h ∉ l.marks

section Acts

variable {u v : UnitId} {l l' : Ledger H} {i : Item H} {s : Multiset (Item H)} {h : Handle}

/-- No nested scope runs on a transaction of a unit that is used in order, when its work does not
    go on. -/
theorem Orderly.running_eq_zero (ho : Orderly u l) (hl : Lives T u l) (hs : Sound l)
    (hopen : (l.account h).opener = some u) (hk : keepers h l ≠ {.item (.outer u h)}) :
    (l.account h).running = 0 := by
  rw [hs.running h]
  refine Multiset.countP_eq_zero.mpr fun i hi hon => ?_
  cases i with
  | nested w h' =>
    obtain rfl : h' = h := by simpa [Item.isNestedOn] using hon
    obtain rfl : w = u := Option.some.inj ((hs.items _ hi h' rfl).symm.trans hopen)
    obtain ⟨c, hx, rfl⟩ := ho.nested h' hi
    exact hk (hl.holder ho.unmixed c hx)
  | _ => cases hon

theorem Orderly.regular (ho : Orderly u l) : Regular u l.marks := ⟨ho.undirected, .inl ho.unmixed⟩

theorem Invariant.isAtWork (hl : Invariant T l) {c : Context (List (Step H))}
    (hx : l.contexts u = some c) : IsAtWork T u c.handle l.marks := by
  refine ⟨hl.sound.contexts u c hx, fun hu => ?_⟩
  have horderly := (hl.kept u).orderly hu
  exact (((hl.kept u).lives horderly.regular).working hl.sound hx horderly.unmixed).1

theorem Timely.act (hl : Invariant T l) (hh : History T l) (hact : Act T T l l') :
    Timely T l'.marks := by
  have ht := hh.timely
  cases hact with
  | advance hn => exact ht
  | cancel v => exact ht.cons (m := .cancelled v) trivial
  | @refuse v hc => exact ht.cons (m := .refused v) trivial
  | @request v p n hc hx hp hT =>
    refine ht.cons (m := .requested v) fun hv => ?_
    have hseated := (hh.balance v).seated
    rw [show seats v l.items = 0 from hT hv, Nat.zero_add] at hseated
    exact hseated
  | @unserved v p s e hi he =>
    refine ht.cons (m := .unserved v e) ?_
    cases e with
    | cancelled => exact .inr (.inr ⟨rfl, (hh.cancelled v).mp he⟩)
    | beginFailed reason => exact .inl ⟨reason, rfl⟩
    | acquireTimeout ms => exact .inr (.inl ⟨ms, rfl⟩)
    | _ => cases he
  | @withdraw v p s hi => exact ht.cons (m := .withdrawn v) trivial
  | @serve v p h n s hi hc hp =>
    have hnone := (hl.sound.fresh_of_serve hi hp).1.opener
    have hopened := ht.cons (m := .opened v h) hnone
    obtain ⟨ms, hmarks, ⟨-, rfl⟩ | ⟨c, -, rfl⟩⟩ := l.marks_openContext v h
    · exact hmarks ▸ hopened
    · exact hmarks ▸ hopened.cons (m := .replaced v c.handle) trivial
  | @enterNested v c hx =>
    exact ht.cons (m := .nestedBegun v c.handle) (hl.isAtWork hx)
  | @leaveNested v h s outcome hi =>
    have hopener : (l.account h).opener = some v := hl.sound.opener_of_eq_cons hi rfl
    have hended := ht.cons (m := .nestedEnded v h outcome) ⟨hopener, fun hv => by
      obtain ⟨c, hx, rfl⟩ := ((hl.kept v).orderly hv).nested h (hi ▸ Multiset.mem_cons_self _ s)
      exact (hl.isAtWork hx).2 hv⟩
    exact (l.marks_leaveNested v h outcome).symm ▸ hended
  | @defer v c effect hx =>
    exact ht.cons (m := .deferred v c.handle effect) (hl.isAtWork hx)
  | @close v h c s outcome hi hx hT =>
    have hopener : (l.account h).opener = some v := hl.sound.opener_of_eq_cons hi rfl
    have hwork := ht.cons (m := .workEnded v h outcome (l.cancelled v)) ⟨hopener, hh.cancelled v⟩
    refine hwork.cons (m := .ending _ h) fun u hopen hr => ?_
    have haccount : account h (l.endWork v h outcome).marks =
        (account h l.marks).note (.workEnded v h outcome (l.cancelled v)) :=
      account_cons_self _ rfl
    rw [haccount] at hopen ⊢
    obtain rfl : v = u := Option.some.inj (hopener.symm.trans hopen)
    obtain ⟨-, hfits⟩ := ((hl.kept v).lives (hr.of_suffix (List.suffix_cons ..))).fits_of_owns hi
      (beq_self_eq_true h) hopener
    have hcourse : (account h l.marks).course = {} := hfits.of_outer.1
    refine ⟨by simp [Account.note, Course.note], ?_, fun hv => ?_⟩
    · simp [Account.note, Course.note, hcourse]
    · refine hl.sound.running_eq_zero hopener ?_
      have hnone : nesteds v s = 0 := hT hv
      rw [hi, nesteds_cons, hnone]
      rfl
  | @stray v h s hi hx =>
    have hopener : (l.account h).opener = some v := hl.sound.opener_of_eq_cons hi rfl
    exact (ht.cons (m := .strayed v h) hopener).cons (m := .returned ..) trivial
  | @interrupt v h s hi hT =>
    have hopener : (l.account h).opener = some v := hl.sound.opener_of_eq_cons hi rfl
    have hcut := ht.cons (m := .interrupted v h) hopener
    obtain ⟨ms, hmarks, rfl | ⟨c, -, -, rfl⟩⟩ := l.marks_interrupt v h
    · exact hmarks ▸ hcut
    · exact hmarks ▸ hcut.cons (m := .lost c.handle) trivial
  | @committed v h effects value s hi => exact ht.cons (m := .ended ..) trivial
  | @commitFailed v h effects value s reason hi =>
    exact (ht.cons (m := .ended ..) trivial).cons (m := .returned ..) trivial
  | @rolledBack v h outcome s failure hi =>
    exact (ht.cons (m := .ended ..) trivial).cons (m := .returned ..) trivial
  | @dropCall i h s hi hc => exact ht.cons (m := .callDropped h) trivial
  | @startEffect v h index effect rest value s hi =>
    have hopener : (l.account h).opener = some v := hl.sound.opener_of_eq_cons hi rfl
    refine ht.cons (m := .effectStarted v h index effect) ⟨hopener, fun hr => ?_⟩
    obtain ⟨-, hfits⟩ := ((hl.kept v).lives hr).fits_of_owns hi (beq_self_eq_true h) hopener
    obtain ⟨started, rfl, hkept, hcourse⟩ := hfits.of_effects
    have hc : (account h l.marks).course = _ := hcourse
    rw [hc]
    refine ⟨rfl, rfl, fun hn => ?_⟩
    have hdeferred : _ = (account h l.marks).deferred := (hkept hn).2
    rw [← hdeferred]
    simp
  | @finishEffects v h index value s hi => exact ht.cons (m := .returned ..) trivial
  | @dropEffects v h index rest value s hi => exact ht
  | @direct v c t hx hT =>
    have hopener : (l.account c.handle).opener = some v := hl.sound.contexts v c hx
    refine (ht.cons (m := .direct v c.handle) trivial).cons (m := .ending t c.handle)
      fun u hopen hr => ?_
    have haccount : account c.handle (l.note (.direct v c.handle)).marks =
        (account c.handle l.marks).note (.direct v c.handle) := account_cons_self _ rfl
    rw [haccount] at hopen
    obtain rfl : v = u := Option.some.inj (hopener.symm.trans hopen)
    exact absurd (List.mem_cons_self ..) (hr.undirected c.handle)
  | @directEnded v h s t failure hi => exact ht.cons (m := .ended ..) trivial
  | @startCleanup h b due failure hb =>
    refine ht.cons (m := .ending .rollback h) fun u hopen hr => ?_
    have hlives := (hl.kept u).lives hr
    have hfits := hlives.fits h hopen
    rw [keepers_of_cleanup (h := h) hb rfl] at hfits
    have hrest := hfits.rest_eq_zero
    rw [hrest] at hfits
    have hcourse : (account h l.marks).course = _ := hfits.of_fresh
    rw [hcourse]
    refine ⟨by simp, rfl, fun hu => ?_⟩
    refine ((hl.kept u).orderly hu).running_eq_zero hlives hl.sound hopen ?_
    rw [keepers_of_cleanup (h := h) hb rfl, hrest]
    simp
  | @endCleanup h b due failure hb => exact ht.cons (m := .ended ..) trivial

/-- Marks that do not cancel a unit say nothing about who is cancelled. -/
theorem cancelled_append (hh : ∀ u, l.cancelled u = true ↔ .cancelled u ∈ l.marks)
    {ms : List (Mark H)} (hms : ∀ m ∈ ms, ∀ u, m ≠ .cancelled u) (u : UnitId) :
    l.cancelled u = true ↔ .cancelled u ∈ ms ++ l.marks := by
  rw [List.mem_append, hh u]
  exact ⟨.inr, fun hm => hm.resolve_left fun hin => hms _ hin u rfl⟩

/-- What an act does beside its marks to what is written down about them. -/
theorem Act.marks (hact : Act T D l l') :
    ∃ ms, l'.marks = ms ++ l.marks ∧ l'.hasRuntime = l.hasRuntime ∧
      (∀ h, .lost h ∈ ms → l.hasRuntime = false) ∧
      ((∃ v, ms = [.cancelled v] ∧ l'.cancelled = Function.update l.cancelled v true) ∨
        (∀ m ∈ ms, ∀ u, m ≠ .cancelled u) ∧ l'.cancelled = l.cancelled) := by
  cases hact with
  | advance hn => exact ⟨[], rfl, rfl, by simp, .inr ⟨by simp, rfl⟩⟩
  | cancel v => exact ⟨[_], rfl, rfl, by simp, .inl ⟨v, rfl, rfl⟩⟩
  | serve hi hc hp =>
    unfold Ledger.openContext
    dsimp only
    split
    · exact ⟨[_], rfl, rfl, by simp, .inr ⟨by simp, rfl⟩⟩
    · exact ⟨[_, _], rfl, rfl, by simp, .inr ⟨by simp, rfl⟩⟩
  | leaveNested outcome hi =>
    unfold Ledger.leaveNested
    dsimp only
    split <;> exact ⟨[_], rfl, rfl, by simp, .inr ⟨by simp, rfl⟩⟩
  | interrupt hi hT =>
    unfold Ledger.interrupt
    dsimp only
    split
    · exact ⟨[_], rfl, rfl, by simp, .inr ⟨by simp, rfl⟩⟩
    · split
      · exact ⟨[_], rfl, rfl, by simp, .inr ⟨by simp, rfl⟩⟩
      · next hr => exact ⟨[_, _], rfl, rfl, by simp [hr], .inr ⟨by simp, rfl⟩⟩
  | close outcome hi hx hT => exact ⟨[_, _], rfl, rfl, by simp, .inr ⟨by simp, rfl⟩⟩
  | stray hi hx => exact ⟨[_, _], rfl, rfl, by simp, .inr ⟨by simp, rfl⟩⟩
  | commitFailed reason hi => exact ⟨[_, _], rfl, rfl, by simp, .inr ⟨by simp, rfl⟩⟩
  | rolledBack failure hi => exact ⟨[_, _], rfl, rfl, by simp, .inr ⟨by simp, rfl⟩⟩
  | direct t hx hT => exact ⟨[_, _], rfl, rfl, by simp, .inr ⟨by simp, rfl⟩⟩
  | dropEffects hi => exact ⟨[], rfl, rfl, by simp, .inr ⟨by simp, rfl⟩⟩
  | _ => exact ⟨[_], rfl, rfl, by simp, .inr ⟨by simp, rfl⟩⟩

/-- Every act keeps the history. -/
theorem History.act (hl : Invariant T l) (hh : History T l) (hact : Act T T l l') :
    History T l' := by
  obtain ⟨ms, hmarks, hruntime, hlost, hcancelled⟩ := hact.marks
  refine ⟨fun u => (hh.balance u).act hact, .act hl hh hact, fun u => ?_, fun hr h hm => ?_⟩
  · rw [hmarks]
    rcases hcancelled with ⟨v, rfl, hc⟩ | ⟨hother, hc⟩
    · rw [hc, Function.update_apply]
      by_cases hv : u = v
      · subst hv
        simp
      · simp [hv, hh.cancelled u]
    · rw [hc]
      exact cancelled_append hh.cancelled hother u
  · rw [hruntime] at hr
    rw [hmarks] at hm
    rcases List.mem_append.mp hm with hm | hm
    · rw [hlost h hm] at hr
      cases hr
    · exact hh.kept hr h hm

/-- Acts one after another keep the invariant and the history. -/
theorem History.acts (hl : Invariant T l) (hh : History T l) (hacts : Acts T T l l') :
    Invariant T l' ∧ History T l' := by
  induction hacts with
  | refl => exact ⟨hl, hh⟩
  | tail _ hact ih => exact ⟨ih.1.act hact, ih.2.act ih.1 hact⟩

end Acts

end BootEngine.Work
