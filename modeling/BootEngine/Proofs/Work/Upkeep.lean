import BootEngine.Proofs.Work.Lives

/-!
# Acts keep the lives of transactions

One lemma for each kind of act on a unit's own transactions: it keeps their accounts fitting.

Contents:
* `Lives.settle`: a scope goes on or ends, its context being gone already.
* `Lives.serve`, `Lives.enterNested`, `Lives.close` and the like: the other acts.
* `Lives.startCleanup`, `Lives.endCleanup`: rollbacks in the background.
-/

namespace BootEngine.Work

open Transaction (Terminal Handle Context)

variable {H : Host} {T : UnitId → Prop}

/-! ## Marks and contexts -/

/-- A mark that only tells how a transaction is brought to its end. -/
structure Mark.IsClosing (h : Handle) (m : Mark H) : Prop where
  handle : m.handle? = some h
  course : ∀ a : Account H, a.note m = { a with course := a.course.note m }
  replaced : ∀ u h, m ≠ .replaced u h
  direct : ∀ u h, m ≠ .direct u h

section Basics

variable {u : UnitId} {h : Handle}

theorem account_append_closing {ms : List (Mark H)} (marks : List (Mark H))
    (hms : ∀ m ∈ ms, m.IsClosing h) :
    account h (ms ++ marks) =
      { account h marks with course := ms.foldr Course.note (account h marks).course } := by
  induction ms with
  | nil => rfl
  | cons m rest ih =>
    have hm := hms m (List.mem_cons_self ..)
    rw [List.cons_append, account_cons_self _ hm.handle, hm.course,
      ih fun m' hm' => hms m' (List.mem_cons_of_mem m hm')]
    rfl

theorem account_append_other {ms : List (Mark H)} (marks : List (Mark H))
    (hms : ∀ m ∈ ms, m.handle? ≠ some h) : account h (ms ++ marks) = account h marks := by
  induction ms with
  | nil => rfl
  | cons m rest ih =>
    rw [List.cons_append, account_cons_of_ne _ (hms m (List.mem_cons_self ..))]
    exact ih fun m' hm' => hms m' (List.mem_cons_of_mem m hm')

theorem isMixed_cons {m : Mark H} (marks : List (Mark H)) (hm : ∀ h, m ≠ .replaced u h) :
    IsMixed u (m :: marks) ↔ IsMixed u marks := by
  refine exists_congr fun h => ?_
  rw [List.mem_cons]
  exact ⟨fun hin => hin.resolve_left fun he => hm h he.symm, .inr⟩

theorem isMixed_append {ms : List (Mark H)} (marks : List (Mark H))
    (hms : ∀ m ∈ ms, ∀ h, m ≠ .replaced u h) : IsMixed u (ms ++ marks) ↔ IsMixed u marks := by
  induction ms with
  | nil => exact .rfl
  | cons m rest ih =>
    rw [List.cons_append, isMixed_cons _ (hms m (List.mem_cons_self ..))]
    exact ih fun m' hm' => hms m' (List.mem_cons_of_mem m hm')

/-- That a context has been overwritten changes no account. -/
theorem account_replaced (v : UnitId) (h' : Handle) (marks : List (Mark H)) :
    account h (.replaced v h' :: marks) = account h marks := by
  by_cases hh : h' = h
  · subst hh
    exact account_cons_self marks rfl
  · exact account_cons_of_ne marks fun he => hh (Option.some.inj he)

theorem scopeKeepers_add (h : Handle) (s t : Multiset (Item H)) :
    scopeKeepers h (s + t) = scopeKeepers h s + scopeKeepers h t := by
  rw [scopeKeepers, Multiset.filter_add, Multiset.map_add]
  rfl

theorem scopeKeepers_singleton {i : Item H} (hi : i.owns h = true) :
    scopeKeepers h {i} = {.item i} := by
  rw [← Multiset.cons_zero, scopeKeepers_cons_of_owns hi]
  rfl

@[simp] theorem contexts_setContext (l : Ledger H) (x : Option (Context (List (Step H)))) :
    (l.setContext u x).contexts u = x := Function.update_self ..

end Basics

/-! ## Scopes whose work has ended -/

section Own

variable {u : UnitId} {l : Ledger H} {h : Handle} {s : Multiset (Item H)}

/-- A scope goes on or ends in a way that leaves contexts alone: `t` is what it goes on with, and
    `ms` are its marks. -/
theorem Lives.settle (hl : Lives T u l) {i : Item H} (t : Multiset (Item H)) (ms : List (Mark H))
    (hi : l.items = i ::ₘ s) (how : i.owns h = true) (ho : (l.account h).opener = some u)
    (hstop : ¬ IsMixed u l.marks → ∀ c, l.contexts u = some c → i ≠ .outer u c.handle)
    (ht : ∀ j ∈ t, j.handle? = some h ∧ ∀ h', j ≠ .direct u h')
    (hms : ∀ m ∈ ms, m.IsClosing h)
    (hfits : ∀ a : Account H,
      (∀ c, (l.account h).course = c → a.course = ms.foldr Course.note c) →
      a.failed = (l.account h).failed → a.deferred = (l.account h).deferred →
      Fits (¬ T u) (IsMixed u l.marks) u h (l.contexts u) (l.account h) {.item i} →
      Fits (¬ T u) (IsMixed u l.marks) u h (l.contexts u) a (scopeKeepers h t)) :
    Lives T u { l with marks := ms ++ l.marks, items := t + s } := by
  obtain ⟨hrest, hf⟩ := hl.fits_of_owns hi how ho
  have hmixed : IsMixed u (ms ++ l.marks) ↔ IsMixed u l.marks :=
    isMixed_append l.marks fun m hm => (hms m hm).replaced u
  have hmine : keepers h { l with marks := ms ++ l.marks, items := t + s } = scopeKeepers h t := by
    rw [keepers, scopeKeepers_add, Multiset.add_assoc]
    exact (congrArg (scopeKeepers h t + ·) hrest).trans (Multiset.add_zero _)
  refine hl.at h (fun h' hd => ?_) hmixed.mpr (fun h' hh => ?_) (fun h' hh => ?_)
    (fun _ c _ => .rfl) (fun hn c hc hh => ?_) fun _ => ?_
  · rcases Multiset.mem_add.mp hd with hd | hd
    · exact absurd rfl ((ht _ hd).2 h')
    · exact hi ▸ Multiset.mem_cons_of_mem hd
  · exact account_append_other l.marks fun m hm he =>
      hh (Option.some.inj ((hms m hm).handle.symm.trans he))
  · have hnone : scopeKeepers h' t = 0 := by
      have hfilter : t.filter (fun j => j.owns h') = 0 := by
        refine Multiset.filter_eq_nil.mpr fun j hj hown => ?_
        exact hh (Option.some.inj ((ht j hj).1.symm.trans (handle?_of_owns hown)))
      rw [scopeKeepers, hfilter]
      rfl
    have hnot : i.owns h' = false := by
      by_contra hown
      have hi' := handle?_of_owns (Bool.of_not_eq_false hown)
      exact hh (Option.some.inj ((handle?_of_owns how).symm.trans hi'))
    rw [keepers_of_not_owns hi hnot, keepers, scopeKeepers_add, hnone, Multiset.zero_add]
    rfl
  · rw [hmixed] at hn
    have hholder := hl.holder hn c hc
    rw [← hh, keepers_of_owns hi how, hrest, Multiset.cons_zero, Multiset.singleton_inj] at hholder
    exact absurd (Keeper.item.inj hholder) (hh ▸ hstop hn c hc)
  · rw [hmine, show IsMixed u (ms ++ l.marks) = IsMixed u l.marks from propext hmixed]
    have hacc := account_append_closing l.marks hms
    show Fits _ _ u h (l.contexts u) (account h (ms ++ l.marks)) _
    rw [hacc]
    exact hfits _ (fun c hc => congrArg (ms.foldr Course.note ·) hc) rfl rfl hf

/-- The same for a scope that ends. -/
theorem Lives.settleEnd (hl : Lives T u l) {i : Item H} (ms : List (Mark H))
    (hi : l.items = i ::ₘ s) (how : i.owns h = true) (ho : (l.account h).opener = some u)
    (hstop : ¬ IsMixed u l.marks → ∀ c, l.contexts u = some c → i ≠ .outer u c.handle)
    (hms : ∀ m ∈ ms, m.IsClosing h)
    (hover : ∀ a : Account H,
      (∀ c, (l.account h).course = c → a.course = ms.foldr Course.note c) →
      a.failed = (l.account h).failed → a.deferred = (l.account h).deferred →
      Fits (¬ T u) (IsMixed u l.marks) u h (l.contexts u) (l.account h) {.item i} →
      Over (¬ T u) (IsMixed u l.marks) a) :
    Lives T u { l with marks := ms ++ l.marks, items := s } := by
  have hset := hl.settle 0 ms hi how ho hstop (fun j hj => absurd hj (Multiset.notMem_zero j)) hms
    fun a hcourse hfailed hdeferred hf => .finished rfl (hover a hcourse hfailed hdeferred hf)
  rwa [Multiset.zero_add] at hset

/-- The same for a scope that goes on. -/
theorem Lives.settleOn (hl : Lives T u l) {i j : Item H} (ms : List (Mark H))
    (hi : l.items = i ::ₘ s) (how : i.owns h = true) (hj : j.owns h = true)
    (ho : (l.account h).opener = some u)
    (hstop : ¬ IsMixed u l.marks → ∀ c, l.contexts u = some c → i ≠ .outer u c.handle)
    (hms : ∀ m ∈ ms, m.IsClosing h)
    (hfits : ∀ a : Account H,
      (∀ c, (l.account h).course = c → a.course = ms.foldr Course.note c) →
      a.failed = (l.account h).failed → a.deferred = (l.account h).deferred →
      Fits (¬ T u) (IsMixed u l.marks) u h (l.contexts u) (l.account h) {.item i} →
      Fits (¬ T u) (IsMixed u l.marks) u h (l.contexts u) a {.item j}) :
    Lives T u { l with marks := ms ++ l.marks, items := j ::ₘ s } := by
  have hset := hl.settle {j} ms hi how ho hstop (fun k hk => ?_) hms
    fun a hcourse hfailed hdeferred hf => ?_
  · rwa [Multiset.singleton_add] at hset
  · rw [Multiset.mem_singleton] at hk
    subst hk
    refine ⟨handle?_of_owns hj, ?_⟩
    rintro h' rfl
    cases hj
  · rw [scopeKeepers_singleton hj]
    exact hfits a hcourse hfailed hdeferred hf

theorem isClosing_ended (t : Terminal) (h : Handle) (failure : Option String) :
    (Mark.ended t h failure : Mark H).IsClosing h :=
  ⟨rfl, fun _ => rfl, fun _ _ => by simp, fun _ _ => by simp⟩

theorem isClosing_returned (u : UnitId) (h : Handle) (outcome : Outcome H) :
    (Mark.returned u h outcome).IsClosing h :=
  ⟨rfl, fun _ => rfl, fun _ _ => by simp, fun _ _ => by simp⟩

theorem Lives.committed (hl : Lives T u l) {effects : List (List (Step H))} {value : Value}
    (hi : l.items = .committing u h effects value ::ₘ s) (ho : (l.account h).opener = some u) :
    Lives T u ((l.note (.ended .commit h none)).holding (.effects u h 0 effects value ::ₘ s)) := by
  refine hl.settleOn [.ended .commit h none] hi (beq_self_eq_true h) (beq_self_eq_true h) ho
    (fun _ _ _ => by simp) (by simp [isClosing_ended]) fun a hcourse hfailed hdeferred hf => ?_
  obtain ⟨hclear, hc⟩ := hf.of_committing
  have hkept : ¬ IsMixed u l.marks → a.failed = false ∧ [] ++ effects = a.deferred := fun hn =>
    ⟨hfailed.trans (hclear hn).1, (hclear hn).2.trans hdeferred.symm⟩
  exact .serving rfl hkept (hcourse _ hc)

theorem Lives.commitFailed (hl : Lives T u l) {effects : List (List (Step H))} {value : Value}
    (reason : String) (hi : l.items = .committing u h effects value ::ₘ s)
    (ho : (l.account h).opener = some u) :
    Lives T u (((l.note (.ended .commit h (some reason))).note
      (.returned u h (.error (.transaction (.commitFailed reason))))).holding s) := by
  refine hl.settleEnd [.returned u h (.error (.transaction (.commitFailed reason))),
    .ended .commit h (some reason)] hi (beq_self_eq_true h) ho (fun _ _ _ => by simp)
    (by simp [isClosing_ended, isClosing_returned]) fun a hcourse hfailed _ hf => ?_
  obtain ⟨hclear, hc⟩ := hf.of_committing
  exact .commitFailed (fun hn => hfailed.trans (hclear hn).1) (hcourse _ hc)

theorem Lives.rolledBack (hl : Lives T u l) {outcome : Outcome H} (failure : Option String)
    (hi : l.items = .rollingBack u h outcome ::ₘ s) (ho : (l.account h).opener = some u) :
    Lives T u (((l.note (.ended .rollback h failure)).note (.returned u h outcome)).holding s) := by
  refine hl.settleEnd [.returned u h outcome, .ended .rollback h failure] hi (beq_self_eq_true h) ho
    (fun _ _ _ => by simp) (by simp [isClosing_ended, isClosing_returned])
    fun a hcourse hfailed _ hf => ?_
  obtain ⟨o, cancelled, hr, hc⟩ := hf.of_rollingBack
  exact .rolledBack (hfailed ▸ hr) (hcourse _ hc)

theorem Lives.dropCall (hl : Lives T u l) {i : Item H} (hi : l.items = i ::ₘ s)
    (hc : i.call? = some h) (ho : (l.account h).opener = some u) (hu : i.unit = u) :
    Lives T u ((l.note (.callDropped h)).holding s) := by
  have hown : i.owns h = true := by
    cases i with
    | committing => simpa [Item.owns, Item.call?] using hc
    | rollingBack => simpa [Item.owns, Item.call?] using hc
    | direct v h' =>
      have hin := hl.undirected h'
      rw [hi, ← hu] at hin
      exact absurd (Multiset.mem_cons_self _ s) hin
    | _ => cases hc
  refine hl.settleEnd [.callDropped h] hi hown ho (fun _ c _ he => by rw [he] at hc; cases hc)
    (fun m hm => ?_) fun a hcourse hfailed _ hf => ?_
  · rw [List.mem_singleton.mp hm]
    exact ⟨rfl, fun _ => rfl, fun _ _ => by simp, fun _ _ => by simp⟩
  · cases i with
    | committing v h' effects value =>
      obtain ⟨hclear, hcommit⟩ := hf.of_committing
      exact .dropped (fun hn _ => hfailed.trans (hclear hn).1) (hcourse _ hcommit)
    | rollingBack v h' r =>
      obtain ⟨o, cancelled, -, hrollback⟩ := hf.of_rollingBack
      refine .dropped (fun _ ht => ?_) (hcourse _ hrollback)
      cases ht
    | direct v h' => cases hown
    | _ => cases hc

theorem Lives.startEffect (hl : Lives T u l) {index : Nat} {effect : List (Step H)}
    {rest : List (List (Step H))} {value : Value}
    (hi : l.items = .effects u h index (effect :: rest) value ::ₘ s)
    (ho : (l.account h).opener = some u) :
    Lives T u ((l.note (.effectStarted u h index effect)).holding
      (.effects u h (index + 1) rest value ::ₘ s)) := by
  refine hl.settleOn [.effectStarted u h index effect] hi (beq_self_eq_true h)
    (beq_self_eq_true h) ho (fun _ _ _ => by simp) (fun m hm => ?_)
    fun a hcourse hfailed hdeferred hf => ?_
  · rw [List.mem_singleton.mp hm]
    exact ⟨rfl, fun _ => rfl, fun _ _ => by simp, fun _ _ => by simp⟩
  · obtain ⟨started, rfl, hclear, hc⟩ := hf.of_effects
    have hlength : started.length + 1 = (started ++ [effect]).length := by
      rw [List.length_append]
      rfl
    have hkept : ¬ IsMixed u l.marks → a.failed = false ∧
        (started ++ [effect]) ++ rest = a.deferred := fun hn =>
      ⟨hfailed.trans (hclear hn).1,
        (List.append_assoc ..).trans ((hclear hn).2.trans hdeferred.symm)⟩
    rw [hlength]
    exact .serving rfl hkept (hcourse _ hc)

theorem Lives.finishEffects (hl : Lives T u l) {index : Nat} {value : Value}
    (hi : l.items = .effects u h index [] value ::ₘ s) (ho : (l.account h).opener = some u) :
    Lives T u ((l.note (.returned u h (.ok value))).holding s) := by
  refine hl.settleEnd [.returned u h (.ok value)] hi (beq_self_eq_true h) ho (fun _ _ _ => by simp)
    (by simp [isClosing_returned]) fun a hcourse hfailed hdeferred hf => ?_
  obtain ⟨started, -, hclear, hc⟩ := hf.of_effects
  have hkept : ¬ IsMixed u l.marks → a.failed = false ∧ started = a.deferred := fun hn =>
    ⟨hfailed.trans (hclear hn).1,
      (List.append_nil _).symm.trans ((hclear hn).2.trans hdeferred.symm)⟩
  exact .served hkept (hcourse _ hc)

theorem Lives.dropEffects (hl : Lives T u l) {index : Nat} {rest : List (List (Step H))}
    {value : Value} (hi : l.items = .effects u h index rest value ::ₘ s)
    (ho : (l.account h).opener = some u) : Lives T u (l.holding s) := by
  refine hl.settleEnd [] hi (beq_self_eq_true h) ho (fun _ _ _ => by simp) (by simp)
    fun a hcourse hfailed hdeferred hf => ?_
  obtain ⟨started, -, hclear, hc⟩ := hf.of_effects
  have hkept : ¬ IsMixed u l.marks → a.failed = false ∧ started <+: a.deferred := fun hn =>
    ⟨hfailed.trans (hclear hn).1,
      hdeferred ▸ (hclear hn).2 ▸ List.prefix_append started rest⟩
  exact .cut hkept (hcourse _ hc)

/-- A scope ends without its context: another one has taken it. -/
theorem Lives.stray (hl : Lives T u l) (hi : l.items = .outer u h ::ₘ s)
    (hx : l.contexts u = none) (ho : (l.account h).opener = some u) :
    Lives T u (((l.note (.strayed u h)).note
      (.returned u h (.error (.transaction .noActiveTransaction)))).holding s) := by
  refine hl.settleEnd [.returned u h (.error (.transaction .noActiveTransaction)), .strayed u h] hi
    (beq_self_eq_true h) ho (fun _ c hc => by rw [hx] at hc; cases hc) (fun m hm => ?_)
    fun a hcourse _ _ hf => ?_
  · rcases List.mem_pair.mp hm with rfl | rfl
    · exact isClosing_returned ..
    · exact ⟨rfl, fun _ => rfl, fun _ _ => by simp, fun _ _ => by simp⟩
  · obtain ⟨hc, hctx⟩ := hf.of_outer
    have hmixed : IsMixed u l.marks := by
      by_contra hn
      obtain ⟨c, hxc, -⟩ := hctx hn
      rw [hx] at hxc
      cases hxc
    exact .strayed hmixed (hcourse _ hc)

/-! ## Scopes that begin, and their work -/

/-- A transaction that nobody has used begins its life; a context that stood there is lost. -/
theorem Lives.serve (hl : Lives T u l) (hs : Sound l) {p : Option Handle} {n : Handle}
    (hi : l.items = .acquiring u p ::ₘ s) (hu : l.Unused h) :
    Lives T u (((l.openContext u h).upTo n).holding (.outer u h ::ₘ s)) := by
  set l' := ((l.openContext u h).upTo n).holding (.outer u h ::ₘ s) with hl'
  -- The marks of the act, with the one of a context that stood there.
  obtain ⟨ms, hms, hold⟩ : ∃ ms, l'.marks = ms ++ .opened u h :: l.marks ∧ _ :=
    l.marks_openContext u h
  have hcontexts : l'.contexts u = some (.start h) :=
    (congrFun (l.contexts_openContext u h) u).trans (Function.update_self ..)
  have hback : l'.background = l.background := l.background_openContext u h
  have hitems : l'.items = .outer u h ::ₘ s := rfl
  -- Such a mark changes no account.
  have haccount : ∀ h', l'.account h' = account h' (.opened u h :: l.marks) := by
    intro h'
    show account h' l'.marks = _
    rw [hms]
    obtain ⟨-, rfl⟩ | ⟨c, -, rfl⟩ := hold
    · rfl
    · exact account_replaced ..
  have hopened : IsMixed u (.opened u h :: l.marks) ↔ IsMixed u l.marks :=
    isMixed_cons l.marks fun _ he => nomatch he
  have hmixed : IsMixed u l'.marks ↔ IsMixed u l.marks ∨ l.contexts u ≠ none := by
    rw [hms]
    obtain ⟨hx, rfl⟩ | ⟨c, hx, rfl⟩ := hold
    · rw [hx]
      exact hopened.trans (or_iff_left (not_not_intro rfl)).symm
    · rw [hx]
      exact iff_of_true ⟨c.handle, List.mem_cons_self ..⟩ (.inr (Option.some_ne_none c))
  have hfree : keepers h (l.holding s) = 0 := by
    rw [← keepers_of_not_owns hi rfl]
    exact hs.keepers_of_unused hu
  have hmine : keepers h l' = {.item (.outer u h)} := by
    have hkeep : keepers h l' = .item (.outer u h) ::ₘ keepers h (l'.holding s) :=
      keepers_of_owns hitems (beq_self_eq_true h)
    have hrest : keepers h (l'.holding s) = keepers h (l.holding s) :=
      congrArg (scopeKeepers h s + cleanupKeepers h ·) hback
    rw [hkeep, hrest, hfree, Multiset.cons_zero]
  refine hl.at h (fun h' hd => ?_) (fun hm => hmixed.mpr (.inl hm)) (fun h' hh => ?_)
    (fun h' hh => ?_) (fun hn c hh => ?_) (fun _ _ _ _ => hmine) fun _ => ?_
  · rw [hitems] at hd
    exact hi ▸ Multiset.mem_cons_of_mem ((Multiset.mem_cons.mp hd).resolve_left fun he => nomatch he)
  · rw [haccount]
    exact account_cons_of_ne _ fun he => hh (Option.some.inj he)
  · have hnot : (Item.outer u h : Item H).owns h' = false := beq_false_of_ne hh
    rw [keepers_of_not_owns hitems hnot, keepers_of_not_owns hi rfl]
    exact congrArg (scopeKeepers h' s + cleanupKeepers h' ·) hback
  · rw [hcontexts]
    constructor
    · intro he
      exact absurd (congrArg Context.handle (Option.some.inj he)) hh
    · intro he
      exact absurd (hmixed.mpr (.inr (by rw [he]; simp))) hn
  · have hempty : l'.account h = ({} : Account H).note (.opened u h) := by
      rw [haccount, account_cons_self _ rfl]
      exact congrArg (Account.note _) hu.account
    rw [hmine, hcontexts, hempty]
    exact .working rfl rfl fun _ => ⟨.start h, rfl, rfl, fun _ => ⟨rfl, rfl⟩, fun he => nomatch he⟩

/-- The holder of a context is at work, unless contexts are mixed. -/
theorem Lives.working (hl : Lives T u l) (hs : Sound l) {c : Context (List (Step H))}
    (hx : l.contexts u = some c) (hn : ¬ IsMixed u l.marks) :
    (l.account c.handle).course = {} ∧
      (c.rolledBack = false → (l.account c.handle).failed = false ∧
        c.effects = (l.account c.handle).deferred) ∧
      (c.rolledBack = true → (l.account c.handle).failed = true ∨ ¬ T u) := by
  have hf := hl.fits c.handle (hs.contexts u c hx)
  rw [hl.holder hn c hx] at hf
  obtain ⟨hc, hctx⟩ := hf.of_outer
  obtain ⟨d, hd, -, hclear, hrolled⟩ := hctx hn
  obtain rfl : c = d := Option.some.inj (hx.symm.trans hd)
  exact ⟨hc, hclear, hrolled⟩

theorem Lives.enterNested (hl : Lives T u l) (hs : Sound l) {c : Context (List (Step H))}
    (hx : l.contexts u = some c) :
    Lives T u (((l.note (.nestedBegun u c.handle)).setContext u (some c.enter)).holding
      (.nested u c.handle ::ₘ l.items)) := by
  have hmixed : IsMixed u (.nestedBegun u c.handle :: l.marks) ↔ IsMixed u l.marks :=
    isMixed_cons l.marks fun _ he => nomatch he
  have hkeep : ∀ h, keepers h (((l.note (.nestedBegun u c.handle)).setContext u
      (some c.enter)).holding (.nested u c.handle ::ₘ l.items)) = keepers h l := fun h =>
    keepers_of_not_owns (i := .nested u c.handle) rfl rfl
  refine hl.at c.handle (fun h hd => ?_) hmixed.mpr (fun h hh => ?_) (fun h _ => hkeep h)
    (fun _ d hh => ?_) (fun hn d hd hh => ?_) fun ho => ?_
  · exact (Multiset.mem_cons.mp hd).resolve_left fun he => nomatch he
  · exact account_note_other l (.nestedBegun u c.handle) rfl hh
  · show Function.update l.contexts u (some c.enter) u = some d ↔ _
    rw [Function.update_self, hx]
    constructor
    · intro he
      exact absurd (congrArg Context.handle (Option.some.inj he)) hh
    · intro he
      exact absurd (congrArg Context.handle (Option.some.inj he)) hh
  · rw [hkeep]
    exact hl.holder (fun hm => hn (hmixed.mpr hm)) c hx
  · rw [hkeep]
    have hnote : (l.note (.nestedBegun u c.handle)).account c.handle =
        (l.account c.handle).note (.nestedBegun u c.handle) := account_note_self _ _ rfl
    show Fits _ (IsMixed u (.nestedBegun u c.handle :: l.marks)) u _
      (Function.update l.contexts u (some c.enter) u)
      ((l.note (.nestedBegun u c.handle)).account c.handle) _
    rw [hnote, Function.update_self]
    refine (hl.fits c.handle (hs.contexts u c hx)).carry hmixed.mpr rfl (fun _ => rfl)
      (fun _ _ => rfl) fun _ _ d hd hdh hclear hrolled => ?_
    obtain rfl : c = d := Option.some.inj (hx.symm.trans hd)
    exact ⟨c.enter, rfl, rfl, hclear, hrolled⟩

/-- What the end of a nested scope makes of a context. -/
def leftBy (outcome : Option (Outcome H)) (c : Context (List (Step H))) : Context (List (Step H)) :=
  (if endedWell outcome then c else c.markRolledBack).exit

theorem handle_leftBy (outcome : Option (Outcome H)) (c : Context (List (Step H))) :
    (leftBy outcome c).handle = c.handle := by
  unfold leftBy
  split <;> rfl

theorem Ledger.contexts_leaveNested (l : Ledger H) (u : UnitId) (h : Handle)
    (outcome : Option (Outcome H)) : (l.leaveNested u h outcome).contexts =
      Function.update l.contexts u ((l.contexts u).map (leftBy outcome)) := by
  unfold Ledger.leaveNested
  dsimp only
  split
  · next hx =>
    rw [hx, Option.map_none, ← hx, Function.update_eq_self]
    rfl
  · next c hx =>
    rw [hx]
    rfl

theorem rolledBack_leftBy (outcome : Option (Outcome H)) (c : Context (List (Step H))) :
    (leftBy outcome c).rolledBack = (c.rolledBack || !endedWell outcome) := by
  unfold leftBy
  split
  · next hwell => rw [hwell, Bool.not_true, Bool.or_false]; rfl
  · next hwell => rw [Bool.eq_false_of_not_eq_true hwell, Bool.not_false, Bool.or_true]; rfl

theorem effects_leftBy {outcome : Option (Outcome H)} (c : Context (List (Step H)))
    (hwell : endedWell outcome = true) : (leftBy outcome c).effects = c.effects := by
  rw [leftBy, if_pos hwell]
  rfl

/-- A nested scope ends. If it failed, the context that stands there is marked; on a unit that is
    used in order this is the context of its own transaction. -/
theorem Lives.leaveNested (hl : Lives T u l) (outcome : Option (Outcome H))
    (hi : l.items = .nested u h ::ₘ s) (hT : T u → ∀ c, l.contexts u = some c → c.handle = h) :
    Lives T u ((l.leaveNested u h outcome).holding s) := by
  set l' := (l.leaveNested u h outcome).holding s with hl'
  obtain ⟨hmarks, hcontexts, hback⟩ : l'.marks = .nestedEnded u h outcome :: l.marks ∧
      l'.contexts u = (l.contexts u).map (leftBy outcome) ∧ l'.background = l.background := by
    refine ⟨l.marks_leaveNested u h outcome, ?_, ?_⟩
    · exact (congrFun (l.contexts_leaveNested u h outcome) u).trans (Function.update_self ..)
    · exact l.background_leaveNested u h outcome
  have hmixed : IsMixed u l'.marks ↔ IsMixed u l.marks := by
    rw [hmarks]
    exact isMixed_cons l.marks fun _ he => nomatch he
  have hkeep : ∀ h', keepers h' l' = keepers h' l := fun h' => by
    rw [keepers_of_not_owns hi rfl]
    exact congrArg (scopeKeepers h' s + cleanupKeepers h' ·) hback
  have haccount : ∀ h', l'.account h' = (l.note (.nestedEnded u h outcome)).account h' := fun h' =>
    congrArg (account h') hmarks
  refine ⟨fun h' hd => hl.undirected h' (hi ▸ Multiset.mem_cons_of_mem hd), fun hn c hc => ?_,
    fun h' ho => ?_⟩
  · rw [hcontexts, Option.map_eq_some_iff] at hc
    obtain ⟨d, hd, rfl⟩ := hc
    rw [handle_leftBy, hkeep]
    exact hl.holder (fun hm => hn (hmixed.mpr hm)) d hd
  · rw [hkeep, hcontexts, haccount]
    rw [haccount, opener_note l _ (fun _ _ => by simp)] at ho
    by_cases hh : h = h'
    · subst hh
      rw [account_note_self l _ rfl]
      -- Failures count while the work goes on.
      have hfailed : ((l.account h).note (.nestedEnded u h outcome)).failed =
          ((l.account h).failed || (l.account h).course.work.isNone && !endedWell outcome) := rfl
      refine (hl.fits h ho).carry hmixed.mpr rfl (fun hw => ?_) (fun _ _ => rfl)
        fun hc _ c hx hch hclear hrolled => ?_
      · rw [hfailed, Option.isNone_eq_false_iff.mpr (Option.isSome_iff_ne_none.mpr hw),
          Bool.false_and, Bool.or_false]
      · have hwork : (l.account h).course.work.isNone = true := by rw [hc]; rfl
        rw [hfailed, hwork, Bool.true_and]
        refine ⟨leftBy outcome c, congrArg (Option.map _) hx, (handle_leftBy ..).trans hch,
          fun hr => ?_, fun hr => ?_⟩
        · rw [rolledBack_leftBy, Bool.or_eq_false_iff, Bool.not_eq_false_eq_eq_true] at hr
          rw [(hclear hr.1).1, hr.2, effects_leftBy c hr.2]
          exact ⟨rfl, (hclear hr.1).2⟩
        · rw [rolledBack_leftBy, Bool.or_eq_true] at hr
          rw [Bool.or_eq_true]
          rcases hr with hr | hr
          · exact (hrolled hr).imp_left .inl
          · exact .inl (.inr hr)
    · rw [account_note_other l (.nestedEnded u h outcome) rfl hh]
      refine (hl.fits h' ho).carry hmixed.mpr rfl (fun _ => rfl) (fun _ _ => rfl)
        fun hc _ c hx hch hclear hrolled => ?_
      refine ⟨leftBy outcome c, congrArg (Option.map _) hx, (handle_leftBy ..).trans hch,
        fun hr => ?_, fun _ => .inr fun hu => hh ((hT hu c hx).symm.trans hch)⟩
      rw [rolledBack_leftBy, Bool.or_eq_false_iff, Bool.not_eq_false_eq_eq_true] at hr
      rw [effects_leftBy c hr.2]
      exact hclear hr.1

/-- An effect is put off; a context that has been marked takes none. -/
theorem Lives.defer (hl : Lives T u l) (hs : Sound l) {c : Context (List (Step H))}
    (effect : List (Step H)) (hx : l.contexts u = some c) :
    Lives T u ((l.note (.deferred u c.handle effect)).setContext u (some (c.defer effect))) := by
  have hmixed : IsMixed u (.deferred u c.handle effect :: l.marks) ↔ IsMixed u l.marks :=
    isMixed_cons l.marks fun _ he => nomatch he
  refine hl.at c.handle (fun h hd => hd) hmixed.mpr (fun h hh => ?_) (fun h _ => rfl)
    (fun _ d hh => ?_) (fun hn d hd hh => ?_) fun ho => ?_
  · exact account_note_other l (.deferred u c.handle effect) rfl hh
  · show Function.update l.contexts u (some (c.defer effect)) u = some d ↔ _
    rw [Function.update_self, hx]
    constructor
    · intro he
      rw [← Option.some.inj he] at hh
      exact absurd (Transaction.Context.handle_defer effect c).symm hh
    · intro he
      exact absurd (congrArg Context.handle (Option.some.inj he)) hh
  · exact hl.holder (fun hm => hn (hmixed.mpr hm)) c hx
  · have hnote : (l.note (.deferred u c.handle effect)).account c.handle =
        (l.account c.handle).note (.deferred u c.handle effect) := account_note_self _ _ rfl
    show Fits _ (IsMixed u (.deferred u c.handle effect :: l.marks)) u _
      (Function.update l.contexts u (some (c.defer effect)) u)
      ((l.note (.deferred u c.handle effect)).account c.handle) (keepers c.handle l)
    rw [hnote, Function.update_self]
    refine (hl.fits c.handle (hs.contexts u c hx)).carry hmixed.mpr rfl (fun _ => rfl)
      (fun hw hn => ?_) fun _ _ d hd hdh hclear hrolled => ?_
    · have hcourse := (hl.working hs hx fun hm => hn (hmixed.mpr hm)).1
      rw [hcourse] at hw
      exact absurd rfl hw
    · obtain rfl : c = d := Option.some.inj (hx.symm.trans hd)
      refine ⟨c.defer effect, rfl, Transaction.Context.handle_defer effect c, fun hr => ?_,
        fun hr => ?_⟩
      · rw [Transaction.Context.rolledBack_defer] at hr
        refine ⟨(hclear hr).1, ?_⟩
        show (c.defer effect).effects = (l.account c.handle).deferred ++ [effect]
        rw [← (hclear hr).2, Transaction.Context.effects_defer effect hr]
      · rw [Transaction.Context.rolledBack_defer] at hr
        exact hrolled hr

/-! ## Work that ends -/

theorem owns_ofWork (u : UnitId) (h h' : Handle) (c : Context (List (Step H))) (cancelled : Bool)
    (outcome : Outcome H) : (Item.ofWork u h c cancelled outcome).owns h' = (h == h') := by
  obtain ⟨_, _, he⟩ | ⟨_, he⟩ := Item.ofWork_cases u h c cancelled outcome <;> rw [he] <;> rfl

/-- Work that ended decides what becomes of its transaction. -/
theorem Lives.close (hl : Lives T u l) {c : Context (List (Step H))} (outcome : Outcome H)
    (hi : l.items = .outer u h ::ₘ s) (hx : l.contexts u = some c)
    (ho : (l.account h).opener = some u) (hT : T u → ¬ IsMixed u l.marks) :
    Lives T u (((l.endWork u h outcome).note
      (.ending (Item.ofWork u h c (l.cancelled u) outcome).terminal h)).holding
        (Item.ofWork u h c (l.cancelled u) outcome ::ₘ s)) := by
  set i := Item.ofWork u h c (l.cancelled u) outcome with hwork
  set l' := ((l.endWork u h outcome).note (.ending i.terminal h)).holding (i ::ₘ s) with hl'
  have hmarks : l'.marks =
      .ending i.terminal h :: .workEnded u h outcome (l.cancelled u) :: l.marks := rfl
  have hcontexts : l'.contexts u = none := Function.update_self ..
  have howns : ∀ h', i.owns h' = (h == h') := fun h' => owns_ofWork ..
  obtain ⟨hrest, hf⟩ := hl.fits_of_owns hi (beq_self_eq_true h) ho
  obtain ⟨hcourse, hctx⟩ := hf.of_outer
  -- Unless contexts are mixed, the context is the one of this transaction.
  have hmatch : ¬ IsMixed u l.marks → c.handle = h ∧
      (c.rolledBack = false → (l.account h).failed = false ∧
        c.effects = (l.account h).deferred) ∧
      (c.rolledBack = true → (l.account h).failed = true ∨ ¬ T u) := by
    intro hn
    obtain ⟨d, hd, hrest⟩ := hctx hn
    obtain rfl : c = d := Option.some.inj (hx.symm.trans hd)
    exact hrest
  have hmixed : IsMixed u l'.marks ↔ IsMixed u l.marks := by
    rw [hmarks]
    refine (isMixed_cons _ fun _ he => ?_).trans (isMixed_cons _ fun _ he => ?_)
    · cases he
    · cases he
  have hmine : keepers h l' = {.item i} := by
    have hkeep : keepers h l' = .item i ::ₘ keepers h (l'.holding s) :=
      keepers_of_owns rfl ((howns h).trans (beq_self_eq_true h))
    rw [hkeep]
    exact congrArg (Keeper.item i ::ₘ ·) hrest
  refine hl.at h (fun h' hd => ?_) hmixed.mpr (fun h' hh => ?_) (fun h' hh => ?_)
    (fun hn d hh => ?_) (fun _ d hd => ?_) fun _ => ?_
  · have hin : Item.direct u h' ∈ i ::ₘ s := hd
    rcases Multiset.mem_cons.mp hin with he | hin
    · have hown := howns h
      rw [← he, beq_self_eq_true] at hown
      cases hown
    · exact hi ▸ Multiset.mem_cons_of_mem hin
  · have hne : ∀ {m : Mark H}, m.handle? = some h → m.handle? ≠ some h' := fun hm he =>
      hh (Option.some.inj (hm.symm.trans he))
    exact (account_cons_of_ne _ (hne rfl)).trans (account_cons_of_ne _ (hne rfl))
  · have hnot : i.owns h' = false := (howns h').trans (beq_false_of_ne hh)
    rw [keepers_of_not_owns (l := l') rfl hnot]
    exact (keepers_of_not_owns hi (beq_false_of_ne hh)).symm
  · rw [hcontexts, hx]
    constructor
    · intro he
      cases he
    · intro he
      have hhandle := (hmatch fun hm => hn (hmixed.mpr hm)).1
      rw [Option.some.inj he] at hhandle
      exact absurd hhandle.symm hh
  · rw [hcontexts] at hd
    cases hd
  · have haccount : l'.account h = ((l.account h).note (.workEnded u h outcome (l.cancelled u))).note
        (.ending i.terminal h) :=
      (account_cons_self _ rfl).trans (congrArg (Account.note _) (account_cons_self _ rfl))
    have hcourse' : (l'.account h).course =
        { work := some (some (outcome, l.cancelled u)), calls := [i.terminal] } := by
      rw [haccount, Account.course_note, Account.course_note, hcourse]
      rfl
    have hfailed : (l'.account h).failed = (l.account h).failed := by rw [haccount]; rfl
    have hdeferred : (l'.account h).deferred = (l.account h).deferred := by rw [haccount]; rfl
    rw [hmine]
    cases outcome with
    | error e =>
      have hwhy : Refusal (¬ T u) (l'.account h).failed (l.cancelled u) (.error e) (.error e) := rfl
      exact .rollingBack rfl hwhy hcourse'
    | ok value =>
      by_cases hcancelled : l.cancelled u = true
      · have hrolling : i = .rollingBack u h (.error (.transaction .cancelled)) := by
          rw [hwork, Item.ofWork, if_pos hcancelled]
        rw [hrolling] at hcourse' ⊢
        exact .rollingBack rfl (.of_cancelled hcancelled value) hcourse'
      · have hgoing := Bool.eq_false_of_not_eq_true hcancelled
        by_cases hrolledBack : c.rolledBack = true
        · have hrolling : i = .rollingBack u h (.error (.transaction .rollbackOnly)) := by
            rw [hwork, Item.ofWork, if_neg hcancelled, if_pos hrolledBack]
          have hfault : (l'.account h).failed = true ∨ ¬ T u := by
            rw [hfailed]
            by_cases hm : IsMixed u l.marks
            · exact .inr fun hu => hT hu hm
            · exact (hmatch hm).2.2 hrolledBack
          rw [hrolling] at hcourse' ⊢
          exact .rollingBack rfl (.of_fault hgoing hfault value) hcourse'
        · have hcommitting : i = .committing u h c.effects value := by
            rw [hwork, Item.ofWork, if_neg hcancelled, if_neg hrolledBack]
          rw [hcommitting, hgoing] at hcourse'
          rw [hcommitting]
          refine .committing rfl (fun hn => ?_) hcourse'
          rw [hfailed, hdeferred]
          exact (hmatch fun hm => hn (hmixed.mpr hm)).2.1 (Bool.eq_false_of_not_eq_true hrolledBack)

/-- Work that is cut off leaves its transaction to the background, or gives it up. -/
theorem Lives.interrupt (hl : Lives T u l) (hi : l.items = .outer u h ::ₘ s)
    (ho : (l.account h).opener = some u) (hn : ¬ IsMixed u l.marks) :
    Lives T u ((l.interrupt u h).holding s) := by
  obtain ⟨hrest, hf⟩ := hl.fits_of_owns hi (beq_self_eq_true h) ho
  obtain ⟨hcourse, hctx⟩ := hf.of_outer
  obtain ⟨c, hx, hch, -⟩ := hctx hn
  set l' := (l.interrupt u h).holding s with hl'
  have hitems : l'.items = s := rfl
  -- What both ways have in common: the context is gone, and other transactions are left alone.
  have hframe : ∀ (ms : List (Mark H)), l'.marks = ms ++ l.marks → (∀ m ∈ ms, m.handle? = some h) →
      (∀ m ∈ ms, ∀ h', m ≠ .replaced u h') → l'.contexts u = none →
      (∀ h', h ≠ h' → (cleanupKeepers h' l'.background : Multiset (Keeper H)) =
        cleanupKeepers h' l.background) →
      Fits (¬ T u) (IsMixed u l'.marks) u h none (l'.account h) (keepers h l') → Lives T u l' := by
    intro ms hms hhandle hreplaced hcontexts hback hfits
    have hmixed : IsMixed u l'.marks ↔ IsMixed u l.marks := by
      rw [hms]
      exact isMixed_append l.marks hreplaced
    refine hl.at h (fun h' hd => ?_) hmixed.mpr (fun h' hh => ?_) (fun h' hh => ?_)
      (fun _ d hh => ?_) (fun _ d hd => ?_) fun _ => hcontexts ▸ hfits
    · exact hi ▸ Multiset.mem_cons_of_mem hd
    · show account h' l'.marks = _
      rw [hms]
      exact account_append_other l.marks fun m hm he =>
        hh (Option.some.inj ((hhandle m hm).symm.trans he))
    · rw [keepers_of_not_owns hi (beq_false_of_ne hh), keepers, hback h' hh]
      rfl
    · rw [hcontexts, hx]
      constructor
      · intro he
        cases he
      · intro he
        rw [Option.some.inj he] at hch
        exact absurd hch.symm hh
    · rw [hcontexts] at hd
      cases hd
  cases hruntime : l.hasRuntime with
  | true =>
    have hcut : l.interrupt u h = { (l.note (.interrupted u h)).setContext u none with
        background := .fresh c.handle ::ₘ l.background } := by
      unfold Ledger.interrupt
      rw [hx]
      exact if_pos hruntime
    rw [hch] at hcut
    have hmarks : l'.marks = [.interrupted u h] ++ l.marks := by rw [hl', hcut]; rfl
    have hback : l'.background = .fresh h ::ₘ l.background := by rw [hl', hcut]; rfl
    have hcontexts : l'.contexts u = none := by rw [hl', hcut]; exact Function.update_self ..
    refine hframe [.interrupted u h] hmarks (by simp [Mark.handle?]) (by simp) hcontexts
      (fun h' hh => ?_) (.waiting ?_ ?_)
    · have hne : (Cleanup.fresh h).handle ≠ h' := hh
      rw [hback]
      exact cleanupKeepers_cons_of_ne hne _
    · have hkeep : keepers h l' =
          .cleanup (.fresh h) ::ₘ keepers h { l' with background := l.background } :=
        keepers_of_cleanup hback rfl
      rw [hkeep]
      exact congrArg (Keeper.cleanup (.fresh h) ::ₘ ·) hrest
    · have haccount : l'.account h = (l.account h).note (.interrupted u h) := by
        show account h l'.marks = _
        rw [hmarks]
        exact account_cons_self _ rfl
      rw [haccount, Account.course_note, hcourse]
      rfl
  | false =>
    have hcut : l.interrupt u h =
        ((l.note (.interrupted u h)).setContext u none).note (.lost c.handle) := by
      unfold Ledger.interrupt
      rw [hx]
      exact if_neg (by rw [hruntime]; simp)
    rw [hch] at hcut
    have hmarks : l'.marks = [.lost h, .interrupted u h] ++ l.marks := by rw [hl', hcut]; rfl
    have hback : l'.background = l.background := by rw [hl', hcut]; rfl
    have hcontexts : l'.contexts u = none := by rw [hl', hcut]; exact Function.update_self ..
    refine hframe [.lost h, .interrupted u h] hmarks (by simp [Mark.handle?]) (by simp) hcontexts
      (fun h' _ => by rw [hback]) (.finished ?_ (.lost ?_))
    · rw [keepers, hback]
      exact hrest
    · have haccount : l'.account h = ((l.account h).note (.interrupted u h)).note (.lost h) := by
        show account h l'.marks = _
        rw [hmarks]
        exact (account_cons_self _ rfl).trans
          (congrArg (Account.note _) (account_cons_self _ rfl))
      rw [haccount, Account.course_note, Account.course_note, hcourse]
      rfl

/-! ## The background -/

theorem Lives.startCleanup (hl : Lives T u l) {b : Multiset Cleanup} (due : Nat)
    (failure : Option String) (hb : l.background = .fresh h ::ₘ b)
    (ho : (l.account h).opener = some u) :
    Lives T u { l.note (.ending .rollback h) with background := .waiting h due failure ::ₘ b } := by
  have hkeep : keepers h l = .cleanup (.fresh h) ::ₘ keepers h { l with background := b } :=
    keepers_of_cleanup hb rfl
  have hf := hl.fits h ho
  rw [hkeep] at hf
  have hrest := hf.rest_eq_zero
  rw [hrest] at hf hkeep
  have hcourse := hf.of_fresh
  set l' : Ledger H :=
    { l.note (.ending .rollback h) with background := .waiting h due failure ::ₘ b } with hl'
  have hmixed : IsMixed u l'.marks ↔ IsMixed u l.marks :=
    isMixed_cons l.marks fun _ he => nomatch he
  refine hl.at h (fun _ hd => hd) hmixed.mpr (fun h' hh => ?_) (fun h' hh => ?_)
    (fun _ _ _ => .rfl) (fun hn c hc hh => ?_) fun _ => ?_
  · exact account_note_other l (.ending .rollback h) rfl hh
  · rw [keepers_of_cleanup_ne hb hh]
    exact keepers_of_cleanup_ne (l := l') rfl hh
  · have hholder := hl.holder (fun hm => hn (hmixed.mpr hm)) c hc
    rw [← hh, hkeep] at hholder
    simp at hholder
  · have hkeep' : keepers h l' = .cleanup (.waiting h due failure) ::ₘ
        keepers h { l' with background := b } := keepers_of_cleanup rfl rfl
    have hnone : keepers h { l' with background := b } = 0 := hrest
    have haccount : l'.account h = (l.account h).note (.ending .rollback h) :=
      account_cons_self _ rfl
    rw [hkeep', hnone, haccount]
    refine .cleaning rfl ?_
    rw [Account.course_note, hcourse]
    rfl

theorem Lives.endCleanup (hl : Lives T u l) {b : Multiset Cleanup} {due : Nat}
    {failure : Option String} (hb : l.background = .waiting h due failure ::ₘ b)
    (ho : (l.account h).opener = some u) :
    Lives T u { l.note (.ended .rollback h failure) with background := b } := by
  have hkeep : keepers h l =
      .cleanup (.waiting h due failure) ::ₘ keepers h { l with background := b } :=
    keepers_of_cleanup hb rfl
  have hf := hl.fits h ho
  rw [hkeep] at hf
  have hrest := hf.rest_eq_zero
  rw [hrest] at hf hkeep
  have hcourse := hf.of_waiting
  set l' : Ledger H := { l.note (.ended .rollback h failure) with background := b } with hl'
  have hmixed : IsMixed u l'.marks ↔ IsMixed u l.marks :=
    isMixed_cons l.marks fun _ he => nomatch he
  refine hl.at h (fun _ hd => hd) hmixed.mpr (fun h' hh => ?_) (fun h' hh => ?_)
    (fun _ _ _ => .rfl) (fun hn c hc hh => ?_) fun _ => ?_
  · exact account_note_other l (.ended .rollback h failure) rfl hh
  · rw [keepers_of_cleanup_ne hb hh]
    rfl
  · have hholder := hl.holder (fun hm => hn (hmixed.mpr hm)) c hc
    rw [← hh, hkeep] at hholder
    simp at hholder
  · have hnone : keepers h l' = 0 := hrest
    have haccount : l'.account h = (l.account h).note (.ended .rollback h failure) :=
      account_cons_self _ rfl
    rw [hnone, haccount]
    have hcleaned : ((l.account h).note (.ended .rollback h failure)).course =
        { work := some none, calls := [.rollback], answers := [(.rollback, failure)] } := by
      rw [Account.course_note, hcourse]
      rfl
    exact .finished rfl (.cleaned hcleaned)

end Own

end BootEngine.Work
