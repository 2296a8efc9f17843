import BootEngine.Proofs.Work.Upkeep

/-!
# The invariant of runs

Ledgers stay sound, the accounts of transactions keep fitting, and the units that are used in order
stay in order. An act of one unit leaves the other units aside.

Contents:
* `Aside`: what an act leaves of other units.
* `Kept`, `Kept.act`: what is kept of one unit.
* `Invariant`, `Invariant.acts`: all of it, and what acts one after another keep.
-/

namespace BootEngine.Work

open Transaction (Terminal Handle Context)

variable {H : Host} {T : UnitId → Prop}

/-! ## Other units -/

/-- A change leaves a unit aside: its scopes, its context and its transactions. -/
structure Aside (u : UnitId) (l l' : Ledger H) : Prop extends Apart u l l' where
  seats : seats u l'.items = seats u l.items
  nested : ∀ h, Item.nested u h ∈ l'.items → .nested u h ∈ l.items
  directed : ∀ h, Mark.direct u h ∈ l'.marks ↔ .direct u h ∈ l.marks
  cut : ∀ h, Mark.interrupted u h ∈ l.marks → .interrupted u h ∈ l'.marks

/-- What is kept of a unit. -/
structure Kept (T : UnitId → Prop) (u : UnitId) (l : Ledger H) : Prop where
  lives : Regular u l.marks → Lives T u l
  orderly : T u → Orderly u l

section Other

variable {u v : UnitId} {l l' l'' : Ledger H} {i : Item H} {s : Multiset (Item H)} {h : Handle}

theorem Aside.trans (h₁ : Aside u l l') (h₂ : Aside u l' l'') : Aside u l l'' where
  toApart := h₁.toApart.trans h₂.toApart
  seats := h₂.seats.trans h₁.seats
  nested h hh := h₁.nested h (h₂.nested h hh)
  directed h := (h₂.directed h).trans (h₁.directed h)
  cut h hh := h₂.cut h (h₁.cut h hh)

theorem Aside.upTo (n : Handle) : Aside u l (l.upTo n) :=
  ⟨.upTo n, rfl, fun _ => id, fun _ => .rfl, fun _ => id⟩

theorem Aside.setCancelled (f : UnitId → Bool) : Aside u l { l with cancelled := f } :=
  ⟨.setCancelled f, rfl, fun _ => id, fun _ => .rfl, fun _ => id⟩

theorem Aside.setContext (x : Option (Context (List (Step H)))) (hv : v ≠ u) :
    Aside u l (l.setContext v x) :=
  ⟨.setContext x (Ne.symm hv), rfl, fun _ => id, fun _ => .rfl, fun _ => id⟩

/-- A mark of another unit. -/
theorem Aside.note {m : Mark H} (hh : ∀ h, m.handle? = some h → (l.account h).opener ≠ some u)
    (hm : ∀ h, m ≠ .replaced u h ∧ m ≠ .opened u h ∧ m ≠ .direct u h) : Aside u l (l.note m) where
  toApart := .note hh (fun h => (hm h).1) fun h => (hm h).2.1
  seats := rfl
  nested _ := id
  directed h := by
    show _ ∈ m :: l.marks ↔ _
    rw [List.mem_cons]
    exact ⟨fun hd => hd.resolve_left fun he => (hm h).2.2 he.symm, .inr⟩
  cut _ hh := List.mem_cons_of_mem _ hh

/-- A scope of another unit begins. -/
theorem Aside.add (hu : i.unit ≠ u)
    (hh : ∀ h, i.handle? = some h → (l.account h).opener ≠ some u) :
    Aside u l (l.holding (i ::ₘ l.items)) where
  toApart := .add hh fun h he => hu (by rw [he]; rfl)
  seats := by
    have hseat : i.isSeat u = false := by
      cases i <;> first | rfl | exact beq_false_of_ne hu
    show Work.seats u (i ::ₘ l.items) = _
    rw [seats_cons, hseat]
    rfl
  nested h hi := (Multiset.mem_cons.mp hi).resolve_left fun he => hu (by rw [← he]; rfl)
  directed _ := .rfl
  cut _ := id

/-- A scope of another unit ends. -/
theorem Aside.drop (hi : l.items = i ::ₘ s) (hu : i.unit ≠ u)
    (hh : ∀ h, i.handle? = some h → (l.account h).opener ≠ some u) :
    Aside u l (l.holding s) where
  toApart := .drop hi hh
  seats := by
    have hseat : i.isSeat u = false := by
      cases i <;> first | rfl | exact beq_false_of_ne hu
    rw [hi, seats_cons, hseat]
    rfl
  nested _ hs := hi ▸ Multiset.mem_cons_of_mem hs
  directed _ := .rfl
  cut _ := id

theorem Aside.addCleanup {c : Cleanup} (hc : (l.account c.handle).opener ≠ some u) :
    Aside u l { l with background := c ::ₘ l.background } :=
  ⟨.addCleanup hc, rfl, fun _ => id, fun _ => .rfl, fun _ => id⟩

theorem Aside.dropCleanup {c : Cleanup} {b : Multiset Cleanup} (hb : l.background = c ::ₘ b)
    (hc : (l.account c.handle).opener ≠ some u) : Aside u l { l with background := b } :=
  ⟨.dropCleanup hb hc, rfl, fun _ => id, fun _ => .rfl, fun _ => id⟩

/-- Marks about one transaction of another unit. -/
theorem Aside.notes (ms : List (Mark H)) (ho : (l.account h).opener ≠ some u)
    (hms : ∀ m ∈ ms, m.IsClosing h) : Aside u l { l with marks := ms ++ l.marks } := by
  induction ms with
  | nil => exact .upTo l.next
  | cons m rest ih =>
    have hrest := ih fun m' hm' => hms m' (List.mem_cons_of_mem m hm')
    have hclosing := hms m (List.mem_cons_self ..)
    refine hrest.trans (Aside.note (fun h' hh' => ?_) fun h' => ⟨hclosing.replaced u h', ?_,
      hclosing.direct u h'⟩)
    · rw [← Option.some.inj (hclosing.handle.symm.trans hh')]
      show (account h (rest ++ l.marks)).opener ≠ some u
      rw [account_append_closing l.marks fun m' hm' => hms m' (List.mem_cons_of_mem m hm')]
      exact ho
    · rintro rfl
      have hopener := congrArg Account.opener (hclosing.course {})
      cases hopener

theorem Kept.aside (hk : Kept T u l) (hs : Sound l) (ha : Aside u l l') : Kept T u l' := by
  have hmixed : IsMixed u l'.marks ↔ IsMixed u l.marks := exists_congr ha.replaced
  refine ⟨fun hr => ?_, fun hu => ?_⟩
  · refine (hk.lives ⟨fun h hd => ?_, ?_⟩).apart hs ha.toApart
    · exact hr.undirected h ((ha.directed h).mpr hd)
    · refine hr.unmixed_or_uncut.imp (fun hn hm => hn (hmixed.mpr hm)) fun hc h hi => ?_
      exact hc h (ha.cut h hi)
  · have ho := hk.orderly hu
    refine ⟨ha.seats ▸ ho.alone, fun hm => ho.unmixed (hmixed.mp hm),
      fun h hd => ho.undirected h ((ha.directed h).mp hd), fun h hn => ?_, fun h hh => ?_⟩
    · rw [ha.contexts]
      exact ho.nested h (ha.nested h hn)
    · have hsame := ha.account h (.inr hh)
      rw [hsame] at hh ⊢
      exact ho.apart h hh

end Other

/-! ## Acts -/

section Acts

variable {u v : UnitId} {l l' : Ledger H} {i j : Item H} {s : Multiset (Item H)} {h : Handle}

theorem IsMixed.mono {marks marks' : List (Mark H)} (hmix : IsMixed u marks) (hm : marks <:+ marks') :
    IsMixed u marks' := hmix.imp fun _ hr => hm.subset hr

theorem Regular.of_suffix {marks marks' : List (Mark H)} (hr : Regular u marks')
    (hm : marks <:+ marks') : Regular u marks where
  undirected h hd := hr.undirected h (hm.subset hd)
  unmixed_or_uncut := hr.unmixed_or_uncut.imp (fun hn hmix => hn (hmix.mono hm))
    fun hc h hi => hc h (hm.subset hi)

/-- Marks that tell how a transaction is brought to its end leave the rest of its account alone. -/
theorem account_closing {ms : List (Mark H)} (marks : List (Mark H)) (hms : ∀ m ∈ ms, m.IsClosing h)
    (h' : Handle) : (account h' (ms ++ marks)).opener = (account h' marks).opener ∧
      (account h' (ms ++ marks)).overlapped = (account h' marks).overlapped := by
  by_cases hh : h = h'
  · subst hh
    rw [account_append_closing marks hms]
    exact ⟨rfl, rfl⟩
  · rw [account_append_other marks fun m hm he =>
      hh (Option.some.inj ((hms m hm).handle.symm.trans he))]
    exact ⟨rfl, rfl⟩

theorem Orderly.settle (ho : Orderly u l) {ms : List (Mark H)} (hms : ∀ m ∈ ms, m.IsClosing h)
    (hseats : seats u s ≤ seats u l.items) (hn : ∀ h, Item.nested u h ∈ s → .nested u h ∈ l.items) :
    Orderly u { l with marks := ms ++ l.marks, items := s } where
  alone := Nat.le_trans hseats ho.alone
  unmixed hm := ho.unmixed ((isMixed_append l.marks fun m hm => (hms m hm).replaced u).mp hm)
  undirected h' hd := by
    rcases List.mem_append.mp hd with hd | hd
    · exact (hms _ hd).direct u h' rfl
    · exact ho.undirected h' hd
  nested h' hh := ho.nested h' (hn h' hh)
  apart h' hh := by
    have hsame := account_closing l.marks hms h'
    exact hsame.2.trans (ho.apart h' (hsame.1.symm.trans hh))

/-- A mark that changes nothing about the order in which a unit is used. -/
structure Mark.IsOrderly (m : Mark H) : Prop where
  replaced : ∀ u h, m ≠ .replaced u h
  direct : ∀ u h, m ≠ .direct u h
  opened : ∀ u h, m ≠ .opened u h
  overlapped : ∀ a : Account H, (a.note m).overlapped = a.overlapped

/-- A nested scope comes or goes, or an effect is put off. -/
theorem Orderly.note (ho : Orderly u l) {m : Mark H} (hm : m.IsOrderly)
    (hmarks : l'.marks = m :: l.marks) (hseats : seats u l'.items ≤ seats u l.items)
    (hn : ∀ h, Item.nested u h ∈ l'.items → ∃ c, l'.contexts u = some c ∧ c.handle = h) :
    Orderly u l' := by
  refine ⟨Nat.le_trans hseats ho.alone, fun hmix => ?_, fun h hd => ?_, hn, fun h hh => ?_⟩
  · rw [hmarks] at hmix
    exact ho.unmixed ((isMixed_cons l.marks (hm.replaced u)).mp hmix)
  · rw [hmarks] at hd
    exact ho.undirected h ((List.mem_cons.mp hd).resolve_left fun he => hm.direct u h he.symm)
  · have haccount : l'.account h = (l.note m).account h := congrArg (account h) hmarks
    rw [haccount, opener_note l m hm.opened] at hh
    rw [haccount]
    by_cases he : m.handle? = some h
    · rw [account_note_self l m he, hm.overlapped]
      exact ho.apart h hh
    · rw [account_note_of_ne l m he]
      exact ho.apart h hh

/-- A scope with a transaction ends, its context being gone already. -/
theorem Kept.settleEnd (hk : Kept T u l) (hs : Sound l) (ms : List (Mark H))
    (hi : l.items = i ::ₘ s) (hh : i.handle? = some h) (hms : ∀ m ∈ ms, m.IsClosing h)
    (hown : i.unit = u → (l.account h).opener = some u → Lives T u l →
      Lives T u { l with marks := ms ++ l.marks, items := s }) :
    Kept T u { l with marks := ms ++ l.marks, items := s } := by
  have ho := hs.opener_of_eq_cons hi hh
  by_cases hu : i.unit = u
  · refine ⟨fun hr => ?_, fun ht => (hk.orderly ht).settle hms ?_ ?_⟩
    · exact hown hu (hu ▸ ho) (hk.lives (hr.of_suffix (List.suffix_append ms l.marks)))
    · rw [hi, seats_cons]
      exact Nat.le_add_right _ _
    · exact fun h' hn => hi ▸ Multiset.mem_cons_of_mem hn
  · have hother : ∀ h', i.handle? = some h' → (l.account h').opener ≠ some u := fun h' he ho' =>
      hu (Option.some.inj ((hs.opener_of_eq_cons hi he).symm.trans ho'))
    exact hk.aside hs ((Aside.drop hi hu hother).trans (.notes ms (hother h hh) hms))

/-- Such a scope goes on. -/
theorem Kept.settleOn (hk : Kept T u l) (hs : Sound l) (ms : List (Mark H))
    (hi : l.items = i ::ₘ s) (hh : i.handle? = some h) (hj : j.handle? = some h)
    (hij : j.unit = i.unit) (hseat : j.isSeat u = false) (hn : ∀ h', j ≠ .nested u h')
    (hms : ∀ m ∈ ms, m.IsClosing h)
    (hown : i.unit = u → (l.account h).opener = some u → Lives T u l →
      Lives T u { l with marks := ms ++ l.marks, items := j ::ₘ s }) :
    Kept T u { l with marks := ms ++ l.marks, items := j ::ₘ s } := by
  have ho := hs.opener_of_eq_cons hi hh
  by_cases hu : i.unit = u
  · refine ⟨fun hr => ?_, fun ht => (hk.orderly ht).settle hms ?_ fun h' hm => ?_⟩
    · exact hown hu (hu ▸ ho) (hk.lives (hr.of_suffix (List.suffix_append ms l.marks)))
    · rw [hi, seats_cons, seats_cons, hseat]
      exact Nat.le_add_right _ _
    · exact hi ▸ Multiset.mem_cons_of_mem
        ((Multiset.mem_cons.mp hm).resolve_left fun he => hn h' he.symm)
  · have hother : ∀ {k : Item H}, k.handle? = some h → ∀ h', k.handle? = some h' →
        (l.account h').opener ≠ some u := by
      intro k hk h' he ho'
      rw [← Option.some.inj (hk.symm.trans he)] at ho'
      exact hu (Option.some.inj (ho.symm.trans ho'))
    have hdrop : Aside u l (l.holding s) := Aside.drop hi hu (hother hh)
    have hadd : Aside u (l.holding s) (l.holding (j ::ₘ s)) :=
      Aside.add (l := l.holding s) (hij ▸ hu) (hother hj)
    exact hk.aside hs ((hdrop.trans hadd).trans
      (Aside.notes (l := l.holding (j ::ₘ s)) ms (hother hh h hh) hms))

/-- A change that touches no transaction. -/
theorem Kept.quiet (hk : Kept T u l) (hs : Sound l) (ha : Apart u l l')
    (hm : l.marks <:+ l'.marks) (hd : ∀ h, Mark.direct u h ∈ l'.marks → .direct u h ∈ l.marks)
    (hc : ∀ h, l'.account h = l.account h) (hseats : T u → seats u l'.items ≤ 1)
    (hn : ∀ h, Item.nested u h ∈ l'.items → .nested u h ∈ l.items) : Kept T u l' := by
  refine ⟨fun hr => (hk.lives (hr.of_suffix hm)).apart hs ha, fun hu => ?_⟩
  have ho := hk.orderly hu
  refine ⟨hseats hu, fun ⟨h, hh⟩ => ho.unmixed ⟨h, (ha.replaced h).mp hh⟩,
    fun h hh => ho.undirected h (hd h hh), fun h hh => ?_, fun h hh => ?_⟩
  · rw [ha.contexts]
    exact ho.nested h (hn h hh)
  · rw [hc] at hh ⊢
    exact ho.apart h hh

/-- A scope waits for a transaction. -/
theorem Kept.request (hk : Kept T u l) (hs : Sound l) {p : Option Handle} {n : Handle}
    (hT : T v → seats v l.items = 0) :
    Kept T u (((l.note (.requested v)).upTo n).holding (.acquiring v p ::ₘ l.items)) := by
  have hnote : Apart u l (l.note (.requested v)) :=
    .note (fun _ he => nomatch he) (fun _ he => nomatch he) fun _ he => nomatch he
  have hadd : Apart u (l.note (.requested v))
      ((l.note (.requested v)).holding (.acquiring v p ::ₘ l.items)) :=
    Apart.add (l := l.note (.requested v)) (fun _ he => nomatch he) fun _ he => nomatch he
  refine hk.quiet hs ((hnote.trans hadd).trans (.upTo n)) (List.suffix_cons _ _)
    (fun h hd => ?_) (fun h => account_cons_of_ne l.marks fun he => nomatch he) (fun hu => ?_)
    fun h hn => ?_
  · exact (List.mem_cons.mp hd).resolve_left fun he => nomatch he
  · show seats u (.acquiring v p ::ₘ l.items) ≤ 1
    rw [seats_cons]
    by_cases hv : v = u
    · subst hv
      rw [hT hu]
      split <;> omega
    · have hseat : (Item.acquiring v p : Item H).isSeat u = false := beq_false_of_ne hv
      rw [hseat]
      exact (hk.orderly hu).alone
  · exact (Multiset.mem_cons.mp hn).resolve_left fun he => nomatch he

/-- A scope that waited for a transaction ends. -/
theorem Kept.giveUp (hk : Kept T u l) (hs : Sound l) {m : Mark H} {p : Option Handle}
    (hi : l.items = .acquiring v p ::ₘ s) (hh : m.handle? = none) :
    Kept T u ((l.note m).holding s) := by
  have hne : ∀ h, m.handle? ≠ some h := fun h => by rw [hh]; simp
  have hnote : Apart u l (l.note m) :=
    .note (fun h he => absurd he (hne h)) (fun h he => hne h (by rw [he]; rfl))
      fun h he => hne h (by rw [he]; rfl)
  refine hk.quiet hs (hnote.trans (.drop (l := l.note m) hi fun _ he => nomatch he))
    (List.suffix_cons _ _) (fun h hd => ?_) (fun h => account_cons_of_ne l.marks (hne h))
    (fun hu => ?_) fun h hn => hi ▸ Multiset.mem_cons_of_mem hn
  · exact (List.mem_cons.mp hd).resolve_left fun he => hne h (by rw [← he]; rfl)
  · have halone := (hk.orderly hu).alone
    rw [hi, seats_cons] at halone
    exact Nat.le_trans (Nat.le_add_right _ _) halone

/-- While a scope of a unit that is used in order waits, the unit has no context. -/
theorem Orderly.contexts_of_acquiring (ho : Orderly u l) (hl : Lives T u l) {p : Option Handle}
    (hi : l.items = .acquiring u p ::ₘ s) : l.contexts u = none := by
  by_contra hx
  obtain ⟨c, hc⟩ := Option.ne_none_iff_exists'.mp hx
  have hholder := hl.holder ho.unmixed c hc
  have hin : Item.outer u c.handle ∈ l.items := by
    refine mem_items_of_keepers (h := c.handle) ?_
    rw [hholder]
    exact Multiset.mem_singleton_self _
  rw [hi] at hin
  have houter : Item.outer u c.handle ∈ s :=
    (Multiset.mem_cons.mp hin).resolve_left fun he => nomatch he
  obtain ⟨t, rfl⟩ := Multiset.exists_cons_of_mem houter
  have halone := ho.alone
  rw [hi, seats_cons, seats_cons, if_pos (by simp [Item.isSeat]),
    if_pos (by simp [Item.isSeat])] at halone
  omega

theorem Kept.serve (hk : Kept T u l) (hs : Sound l) {p : Option Handle} {n : Handle}
    (hi : l.items = .acquiring v p ::ₘ s)
    (hp : p = some h ∧ n = l.next ∨ p = none ∧ h = l.next ∧ n = l.next + 1) :
    Kept T u (((l.openContext v h).upTo n).holding (.outer v h ::ₘ s)) := by
  have hunused := (hs.fresh_of_serve hi hp).1
  by_cases hv : v = u
  · subst hv
    have hsuffix : l.marks <:+ (l.openContext v h).marks := by
      obtain ⟨ms, hmarks, -⟩ := l.marks_openContext v h
      exact hmarks ▸ (List.suffix_cons _ _).trans (List.suffix_append _ _)
    refine ⟨fun hr => (hk.lives (hr.of_suffix hsuffix)).serve hs hi hunused, fun hu => ?_⟩
    have ho := hk.orderly hu
    have hregular : Regular v l.marks := ⟨ho.undirected, .inl ho.unmixed⟩
    have hx := ho.contexts_of_acquiring (hk.lives hregular) hi
    have hopen : l.openContext v h = (l.note (.opened v h)).setContext v (some (.start h)) := by
      unfold Ledger.openContext
      rw [hx]
    rw [hopen]
    refine ⟨?_, fun hm => ?_, fun h' hd => ?_, fun h' hn => ?_, fun h' hh => ?_⟩
    · have halone := ho.alone
      rw [hi, seats_cons] at halone
      show seats v (.outer v h ::ₘ s) ≤ 1
      rw [seats_cons]
      exact halone
    · exact ho.unmixed ((isMixed_cons (m := .opened v h) l.marks fun _ he => nomatch he).mp hm)
    · exact ho.undirected h' ((List.mem_cons.mp hd).resolve_left fun he => nomatch he)
    · have hin : Item.nested v h' ∈ l.items := hi ▸ Multiset.mem_cons_of_mem
        ((Multiset.mem_cons.mp hn).resolve_left fun he => nomatch he)
      obtain ⟨c, hc, -⟩ := ho.nested h' hin
      rw [hx] at hc
      cases hc
    · have hh : ((l.note (.opened v h)).account h').opener = some v := hh
      show ((l.note (.opened v h)).account h').overlapped = false
      by_cases he : h = h'
      · subst he
        rw [account_note_self l _ rfl, hunused.account]
        rfl
      · rw [account_note_other l (.opened v h) rfl he] at hh ⊢
        exact ho.apart h' hh
  · have hdrop : Aside u l (l.holding s) := .drop hi hv fun _ he => nomatch he
    have hopened : Aside u (l.holding s) ((l.holding s).note (.opened v h)) := by
      refine .note (fun h' he ho => ?_) fun h' =>
        ⟨(fun he => nomatch he), ?_, (fun he => nomatch he)⟩
      · rw [← Option.some.inj he] at ho
        exact Ledger.not_unused_of_opener ho ⟨hunused.account, hunused.background⟩
      · intro he
        exact hv (Mark.opened.inj he).1
    have hset := hopened.trans (.setContext (some (.start h)) hv)
    have hmine : ((((l.holding s).note (.opened v h)).setContext v
        (some (.start h))).account h).opener ≠ some u := by
      intro he
      have hopener : (((l.holding s).note (.opened v h)).account h).opener = some v :=
        congrArg Account.opener (account_note_self _ _ rfl)
      exact hv (Option.some.inj (hopener.symm.trans he))
    have hadd := hset.trans (Aside.add (i := .outer v h) hv fun h' he =>
      Option.some.inj he ▸ hmine)
    refine hk.aside hs (hdrop.trans ?_)
    unfold Ledger.openContext
    dsimp only
    split
    · exact hadd.trans (.upTo n)
    · next c hc =>
      refine hadd.trans ((Aside.note (m := .replaced v c.handle) (fun h' he ho => ?_) fun h' =>
        ⟨fun he => hv (Mark.replaced.inj he).1, (fun he => nomatch he), (fun he => nomatch he)⟩).trans
          (.upTo n))
      rw [← Option.some.inj he] at ho
      have hopener := hs.contexts v c hc
      have hne : h ≠ c.handle := fun he => Ledger.not_unused_of_opener hopener (he ▸ hunused)
      have hsame : (((l.holding s).note (.opened v h)).account c.handle).opener = some v := by
        rw [account_note_other _ (.opened v h) rfl hne]
        exact hopener
      exact hv (Option.some.inj (hsame.symm.trans ho))

theorem ne_of_opener (ho : (l.account h).opener = some v) (hv : v ≠ u) :
    (l.account h).opener ≠ some u := fun he => hv (Option.some.inj (ho.symm.trans he))

theorem Kept.enterNested (hk : Kept T u l) (hs : Sound l) {c : Context (List (Step H))}
    (hx : l.contexts v = some c) :
    Kept T u (((l.note (.nestedBegun v c.handle)).setContext v (some c.enter)).holding
      (.nested v c.handle ::ₘ l.items)) := by
  have hopener := hs.contexts v c hx
  by_cases hv : v = u
  · subst hv
    refine ⟨fun hr => (hk.lives (hr.of_suffix (List.suffix_cons _ _))).enterNested hs hx,
      fun hu => ?_⟩
    have ho := hk.orderly hu
    refine ho.note (m := .nestedBegun v c.handle)
      ⟨fun _ _ => by simp, fun _ _ => by simp, fun _ _ => by simp, fun _ => rfl⟩ rfl ?_ ?_
    · show seats v (.nested v c.handle ::ₘ l.items) ≤ seats v l.items
      rw [seats_cons]
      exact Nat.le_refl _
    · intro h' hn
      refine ⟨c.enter, contexts_setContext _ _, ?_⟩
      rcases Multiset.mem_cons.mp hn with he | hn
      · exact (Item.nested.inj he).2.symm
      · obtain ⟨d, hd, hdh⟩ := ho.nested h' hn
        rw [Option.some.inj (hx.symm.trans hd)]
        exact hdh
  · have hadd : Aside u l (l.holding (.nested v c.handle ::ₘ l.items)) :=
      .add hv fun h' he => Option.some.inj he ▸ ne_of_opener hopener hv
    have hnote : Aside u (l.holding (.nested v c.handle ::ₘ l.items))
        ((l.holding (.nested v c.handle ::ₘ l.items)).note (.nestedBegun v c.handle)) :=
      .note (fun h' he => Option.some.inj he ▸ ne_of_opener (l := l) hopener hv)
        fun h' => ⟨(fun he => nomatch he), (fun he => nomatch he), (fun he => nomatch he)⟩
    exact hk.aside hs ((hadd.trans hnote).trans (.setContext _ hv))

theorem Kept.leaveNested (hk : Kept T u l) (hs : Sound l) (outcome : Option (Outcome H))
    (hi : l.items = .nested v h ::ₘ s) : Kept T u ((l.leaveNested v h outcome).holding s) := by
  have hopener : (l.account h).opener = some v := hs.opener_of_eq_cons hi rfl
  by_cases hv : v = u
  · subst hv
    have hin : Item.nested v h ∈ l.items := hi ▸ Multiset.mem_cons_self _ s
    have hmarks := l.marks_leaveNested v h outcome
    have hcontexts : (l.leaveNested v h outcome).contexts v =
        (l.contexts v).map (leftBy outcome) := by
      rw [l.contexts_leaveNested, Function.update_self]
    have hone : T v → ∀ c, l.contexts v = some c → c.handle = h := by
      intro hu c hx
      obtain ⟨d, hd, hdh⟩ := (hk.orderly hu).nested h hin
      rw [Option.some.inj (hx.symm.trans hd)]
      exact hdh
    refine ⟨fun hr => (hk.lives (hr.of_suffix ?_)).leaveNested outcome hi hone, fun hu => ?_⟩
    · exact hmarks ▸ List.suffix_cons _ _
    have ho := hk.orderly hu
    refine ho.note (m := .nestedEnded v h outcome)
      ⟨fun _ _ => by simp, fun _ _ => by simp, fun _ _ => by simp, fun _ => rfl⟩ hmarks ?_ ?_
    · rw [hi, seats_cons]
      exact Nat.le_refl _
    · intro h' hn
      obtain ⟨c, hc, hch⟩ := ho.nested h' (hi ▸ Multiset.mem_cons_of_mem hn)
      exact ⟨leftBy outcome c, hcontexts.trans (congrArg (Option.map _) hc),
        (handle_leftBy ..).trans hch⟩
  · have hdrop : Aside u l (l.holding s) := .drop hi hv fun h' he =>
      Option.some.inj he ▸ ne_of_opener hopener hv
    have hnote : Aside u (l.holding s) ((l.holding s).note (.nestedEnded v h outcome)) :=
      .note (fun h' he => Option.some.inj he ▸ ne_of_opener (l := l) hopener hv)
        fun h' => ⟨(fun he => nomatch he), (fun he => nomatch he), (fun he => nomatch he)⟩
    refine hk.aside hs ((hdrop.trans hnote).trans ?_)
    unfold Ledger.leaveNested
    dsimp only
    split
    · exact .upTo _
    · exact .setContext _ hv

theorem Kept.defer (hk : Kept T u l) (hs : Sound l) {c : Context (List (Step H))}
    (effect : List (Step H)) (hx : l.contexts v = some c) :
    Kept T u ((l.note (.deferred v c.handle effect)).setContext v (some (c.defer effect))) := by
  have hopener := hs.contexts v c hx
  by_cases hv : v = u
  · subst hv
    refine ⟨fun hr => (hk.lives (hr.of_suffix (List.suffix_cons _ _))).defer hs effect hx,
      fun hu => ?_⟩
    have ho := hk.orderly hu
    refine ho.note (m := .deferred v c.handle effect)
      ⟨fun _ _ => by simp, fun _ _ => by simp, fun _ _ => by simp, fun _ => rfl⟩ rfl
      (Nat.le_refl _) fun h' hn => ⟨c.defer effect, contexts_setContext _ _, ?_⟩
    obtain ⟨d, hd, hdh⟩ := ho.nested h' hn
    rw [Transaction.Context.handle_defer, Option.some.inj (hx.symm.trans hd)]
    exact hdh
  · have hnote : Aside u l (l.note (.deferred v c.handle effect)) :=
      .note (fun h' he => Option.some.inj he ▸ ne_of_opener hopener hv)
        fun h' => ⟨(fun he => nomatch he), (fun he => nomatch he), (fun he => nomatch he)⟩
    exact hk.aside hs (hnote.trans (.setContext _ hv))

theorem not_mem_of_nesteds_eq_zero (hn : nesteds u s = 0) (h : Handle) : Item.nested u h ∉ s :=
  fun hin => Multiset.countP_eq_zero.mp hn _ hin (by simp [Item.isNested])

/-- Without nested scopes of its unit no nested scope runs on a transaction. -/
theorem Sound.running_eq_zero (hs : Sound l) (ho : (l.account h).opener = some u)
    (hn : nesteds u l.items = 0) : (l.account h).running = 0 := by
  rw [hs.running h]
  refine Multiset.countP_eq_zero.mpr fun i hi hon => ?_
  cases i with
  | nested w h' =>
    have hh : h' = h := by simpa [Item.isNestedOn] using hon
    subst hh
    have hw : some w = some u := (hs.items _ hi h' rfl).symm.trans ho
    rw [Option.some.inj hw] at hi
    exact not_mem_of_nesteds_eq_zero hn h' hi
  | _ => cases hon

theorem unit_ofWork (u : UnitId) (h : Handle) (c : Context (List (Step H))) (cancelled : Bool)
    (outcome : Outcome H) : (Item.ofWork u h c cancelled outcome).unit = u := by
  obtain ⟨_, _, he⟩ | ⟨_, he⟩ := Item.ofWork_cases u h c cancelled outcome <;> rw [he] <;> rfl

theorem isSeat_ofWork (u v : UnitId) (h : Handle) (c : Context (List (Step H))) (cancelled : Bool)
    (outcome : Outcome H) : (Item.ofWork u h c cancelled outcome).isSeat v = false := by
  obtain ⟨_, _, he⟩ | ⟨_, he⟩ := Item.ofWork_cases u h c cancelled outcome <;> rw [he] <;> rfl

/-- What holds of a unit that is used in order after the work of its outermost scope has ended. -/
theorem Orderly.endWork (ho : Orderly u l) (hs : Sound l) (hi : l.items = .outer u h ::ₘ s)
    (hn : nesteds u s = 0) {m : Mark H} {ms : List (Mark H)}
    (hover : ∀ a : Account H, a.running = 0 → (a.note m).overlapped = false)
    (hm : m.handle? = some h) (hplain : m.isPlain = true) (hr : ∀ h', m ≠ .replaced u h')
    (hd : ∀ h', m ≠ .direct u h') (hms : ∀ m' ∈ ms, m'.IsClosing h) {t : Multiset (Item H)}
    (hseats : seats u t = seats u s) (ht : nesteds u t = 0)
    (hmarks : l'.marks = ms ++ m :: l.marks) (hitems : l'.items = t) : Orderly u l' := by
  have hopener : (l.account h).opener = some u := hs.opener_of_eq_cons hi rfl
  have hzero : (l.account h).running = 0 := hs.running_eq_zero hopener (by
    rw [hi, nesteds_cons, hn]
    rfl)
  refine ⟨?_, fun hmix => ?_, fun h' hin => ?_, fun h' hin => ?_, fun h' hh => ?_⟩
  · have halone := ho.alone
    rw [hi, seats_cons] at halone
    rw [hitems, hseats]
    exact Nat.le_trans (Nat.le_add_right _ _) halone
  · rw [hmarks] at hmix
    exact ho.unmixed ((isMixed_cons _ hr).mp
      ((isMixed_append _ fun m' hm' => (hms m' hm').replaced u).mp hmix))
  · rw [hmarks] at hin
    rcases List.mem_append.mp hin with hin | hin
    · exact (hms _ hin).direct u h' rfl
    · exact ho.undirected h' ((List.mem_cons.mp hin).resolve_left fun he => hd h' he.symm)
  · rw [hitems] at hin
    exact absurd hin (not_mem_of_nesteds_eq_zero ht h')
  · have hsame := account_closing (m :: l.marks) hms h'
    have haccount : l'.account h' = account h' (ms ++ m :: l.marks) := congrArg (account h') hmarks
    rw [haccount, hsame.1] at hh
    rw [haccount, hsame.2]
    have hopen : ((l.note m).account h').opener = some u := hh
    rw [opener_note l m (ne_opened_of_isPlain hplain)] at hopen
    by_cases he : h = h'
    · subst he
      rw [account_cons_self _ hm]
      exact hover _ hzero
    · rw [account_cons_of_ne _ fun he' => he (Option.some.inj (hm.symm.trans he'))]
      exact ho.apart h' hopen

theorem isClosing_ending (t : Terminal) (h : Handle) : (Mark.ending t h : Mark H).IsClosing h :=
  ⟨rfl, fun _ => rfl, fun _ _ => by simp, fun _ _ => by simp⟩

theorem isClosing_lost (h : Handle) : (Mark.lost h : Mark H).IsClosing h :=
  ⟨rfl, fun _ => rfl, fun _ _ => by simp, fun _ _ => by simp⟩

theorem Kept.close (hk : Kept T u l) (hs : Sound l) {c : Context (List (Step H))}
    (outcome : Outcome H) (hi : l.items = .outer v h ::ₘ s) (hx : l.contexts v = some c)
    (hT : T v → nesteds v s = 0) :
    Kept T u (((l.endWork v h outcome).note
      (.ending (Item.ofWork v h c (l.cancelled v) outcome).terminal h)).holding
        (Item.ofWork v h c (l.cancelled v) outcome ::ₘ s)) := by
  have hopener : (l.account h).opener = some v := hs.opener_of_eq_cons hi rfl
  have hunit := unit_ofWork v h c (l.cancelled v) outcome
  have howns := fun h' => owns_ofWork v h h' c (l.cancelled v) outcome
  have hseat := fun w => isSeat_ofWork v w h c (l.cancelled v) outcome
  generalize hj : Item.ofWork v h c (l.cancelled v) outcome = j at *
  have hhandle : j.handle? = some h := handle?_of_owns ((howns h).trans (beq_self_eq_true h))
  have hnested : ∀ w, j.isNested w = false := by
    intro w
    have hmine := (howns h).trans (beq_self_eq_true h)
    cases j <;> first | rfl | cases hmine
  by_cases hv : v = u
  · subst hv
    refine ⟨fun hr => ?_, fun hu => ?_⟩
    · rw [← hj]
      exact (hk.lives (hr.of_suffix ((List.suffix_cons _ _).trans (List.suffix_cons _ _)))).close
        outcome hi hx hopener fun hu => (hk.orderly hu).unmixed
    · refine (hk.orderly hu).endWork hs hi (hT hu) (m := .workEnded v h outcome (l.cancelled v))
        (fun a ha => ?_) rfl rfl (fun _ he => nomatch he) (fun _ he => nomatch he)
        (List.forall_mem_singleton.mpr (isClosing_ending j.terminal h)) ?_ ?_ rfl rfl
      · show (a.running != 0) = false
        rw [ha]
        rfl
      · show seats v (j ::ₘ s) = seats v s
        rw [seats_cons, hseat]
        rfl
      · show nesteds v (j ::ₘ s) = 0
        rw [nesteds_cons, hnested, hT hu]
        rfl
  · have hmine := ne_of_opener hopener hv
    have hdrop : Aside u l (l.holding s) := .drop hi hv fun h' he => Option.some.inj he ▸ hmine
    have hadd : Aside u (l.holding s) (l.holding (j ::ₘ s)) :=
      Aside.add (l := l.holding s) (hunit ▸ hv) fun h' he =>
        Option.some.inj (hhandle.symm.trans he) ▸ hmine
    have hended : Aside u (l.holding (j ::ₘ s)) ((l.holding (j ::ₘ s)).note
        (.workEnded v h outcome (l.cancelled v))) :=
      .note (fun h' he => Option.some.inj he ▸ hmine)
        fun h' => ⟨(fun he => nomatch he), (fun he => nomatch he), (fun he => nomatch he)⟩
    have hending : Aside u ((l.holding (j ::ₘ s)).note (.workEnded v h outcome (l.cancelled v)))
        (((l.holding (j ::ₘ s)).note (.workEnded v h outcome (l.cancelled v))).note
          (.ending j.terminal h)) := by
      refine .note (fun h' he ho => ?_)
        fun h' => ⟨(fun he => nomatch he), (fun he => nomatch he), (fun he => nomatch he)⟩
      rw [← Option.some.inj he, opener_note _ _ (fun _ _ => by simp)] at ho
      exact hmine ho
    exact hk.aside hs ((((hdrop.trans hadd).trans hended).trans hending).trans (.setContext none hv))

theorem Kept.interrupt (hk : Kept T u l) (hs : Sound l) (hi : l.items = .outer v h ::ₘ s)
    (hT : T v → nesteds v s = 0) : Kept T u ((l.interrupt v h).holding s) := by
  have hopener : (l.account h).opener = some v := hs.opener_of_eq_cons hi rfl
  by_cases hv : v = u
  · subst hv
    obtain ⟨ms, hmarks, hlost⟩ := l.marks_interrupt v h
    have hsuffix : l.marks <:+ (l.interrupt v h).marks :=
      hmarks ▸ (List.suffix_cons _ _).trans (List.suffix_append _ _)
    refine ⟨fun hr => ?_, fun hu => ?_⟩
    · have hin : Mark.interrupted v h ∈ (l.interrupt v h).marks :=
        hmarks ▸ List.mem_append_right ms (List.mem_cons_self ..)
      have hn : ¬ IsMixed v l.marks := by
        rintro ⟨h', hm⟩
        rcases hr.unmixed_or_uncut with hn | hc
        · exact hn ⟨h', hsuffix.subset hm⟩
        · exact hc h hin
      exact (hk.lives (hr.of_suffix hsuffix)).interrupt hi hopener hn
    · have ho := hk.orderly hu
      have hl := hk.lives ⟨ho.undirected, .inl ho.unmixed⟩
      obtain ⟨-, hf⟩ := hl.fits_of_owns hi (beq_self_eq_true h) hopener
      obtain ⟨c, hx, hch, -⟩ := hf.of_outer.2 ho.unmixed
      refine ho.endWork hs hi (hT hu) (m := .interrupted v h) (fun a ha => ?_) rfl rfl
        (fun _ he => nomatch he) (fun _ he => nomatch he) (fun m hm => ?_) rfl (hT hu) hmarks rfl
      · show (a.running != 0) = false
        rw [ha]
        rfl
      · obtain rfl | ⟨d, hd, -, rfl⟩ := hlost
        · cases hm
        · rw [List.mem_singleton.mp hm, Option.some.inj (hd.symm.trans hx), hch]
          exact isClosing_lost h
  · have hmine := ne_of_opener hopener hv
    have hdrop : Aside u l (l.holding s) := .drop hi hv fun h' he => Option.some.inj he ▸ hmine
    have hcut : Aside u (l.holding s) ((l.holding s).note (.interrupted v h)) :=
      .note (fun h' he => Option.some.inj he ▸ hmine)
        fun h' => ⟨(fun he => nomatch he), (fun he => nomatch he), (fun he => nomatch he)⟩
    refine hk.aside hs ((hdrop.trans hcut).trans ?_)
    unfold Ledger.interrupt
    dsimp only
    split
    · exact .upTo _
    · next c hx =>
      have hother : (((l.holding s).note (.interrupted v h)).account c.handle).opener ≠ some u := by
        rw [opener_note _ _ (fun _ _ => by simp)]
        exact ne_of_opener (hs.contexts v c hx) hv
      split
      · exact (Aside.setContext none hv).trans (.addCleanup hother)
      · exact (Aside.setContext none hv).trans (.note (fun h' he => Option.some.inj he ▸ hother)
          fun h' => ⟨(fun he => nomatch he), (fun he => nomatch he), (fun he => nomatch he)⟩)

theorem Kept.direct (hk : Kept T u l) (hs : Sound l) {c : Context (List (Step H))} (t : Terminal)
    (hx : l.contexts v = some c) (hT : ¬ T v) :
    Kept T u (((l.note (.direct v c.handle)).note (.ending t c.handle)).holding
      (.direct v c.handle ::ₘ l.items)) := by
  have hopener := hs.contexts v c hx
  by_cases hv : v = u
  · subst hv
    refine ⟨fun hr => ?_, fun hu => absurd hu hT⟩
    exact absurd (List.mem_cons_of_mem _ (List.mem_cons_self ..)) (hr.undirected c.handle)
  · have hmine := ne_of_opener hopener hv
    have hadd : Aside u l (l.holding (.direct v c.handle ::ₘ l.items)) :=
      .add hv fun h' he => Option.some.inj he ▸ hmine
    have hdirect : Aside u (l.holding (.direct v c.handle ::ₘ l.items))
        ((l.holding (.direct v c.handle ::ₘ l.items)).note (.direct v c.handle)) :=
      .note (fun h' he => Option.some.inj he ▸ hmine) fun h' =>
        ⟨(fun he => nomatch he), (fun he => nomatch he), fun he => hv (Mark.direct.inj he).1⟩
    refine hk.aside hs ((hadd.trans hdirect).trans (.note (fun h' he ho => ?_) fun h' =>
      ⟨(fun he => nomatch he), (fun he => nomatch he), (fun he => nomatch he)⟩))
    rw [← Option.some.inj he, opener_note _ _ (fun _ _ => by simp)] at ho
    exact hmine ho

/-- A rollback in the background goes on or ends. -/
theorem Kept.cleanup (hk : Kept T u l) (hs : Sound l) {c : Cleanup} {b : Multiset Cleanup}
    {m : Mark H} (hb : l.background = c ::ₘ b) {b' : Multiset Cleanup}
    (hb' : b' = b ∨ ∃ c', c'.handle = c.handle ∧ b' = c' ::ₘ b) (hm : m.IsClosing c.handle)
    (hown : (l.account c.handle).opener = some u → Lives T u l →
      Lives T u { l.note m with background := b' }) :
    Kept T u { l.note m with background := b' } := by
  by_cases ho : (l.account c.handle).opener = some u
  · refine ⟨fun hr => hown ho (hk.lives (hr.of_suffix (List.suffix_cons _ _))), fun hu => ?_⟩
    have hset := (hk.orderly hu).settle (List.forall_mem_singleton.mpr hm) (Nat.le_refl _)
      fun _ => id
    exact ⟨hset.alone, hset.unmixed, hset.undirected, hset.nested, hset.apart⟩
  · have hnote : Aside u l (l.note m) := .notes [m] ho (List.forall_mem_singleton.mpr hm)
    have hsame : ((l.note m).account c.handle).opener ≠ some u := by
      have hclosing := account_closing l.marks (List.forall_mem_singleton.mpr hm) c.handle
      exact fun he => ho (hclosing.1.symm.trans he)
    have hdrop : Aside u (l.note m) { l.note m with background := b } := .dropCleanup hb hsame
    refine hk.aside hs (hnote.trans ?_)
    rcases hb' with rfl | ⟨c', hc', rfl⟩
    · exact hdrop
    · exact hdrop.trans (.addCleanup (l := { l.note m with background := b }) (hc' ▸ hsame))

end Acts

/-! ## The invariant -/

/-- What holds in every run: the ledger is sound, and of every unit it is kept what its use
    allows. -/
structure Invariant (T : UnitId → Prop) (l : Ledger H) : Prop where
  sound : Sound l
  kept : ∀ u, Kept T u l

/-- Every act keeps what holds of a unit. -/
theorem Kept.act {u : UnitId} {l l' : Ledger H} (hk : Kept T u l) (hs : Sound l)
    (hact : Act T T l l') : Kept T u l' := by
  cases hact with
  | advance hn => exact hk.aside hs (.upTo _)
  | cancel v =>
    have hnote : Aside u l (l.note (.cancelled v)) := .note (fun _ he => nomatch he)
      fun _ => ⟨(fun he => nomatch he), (fun he => nomatch he), (fun he => nomatch he)⟩
    exact hk.aside hs (hnote.trans (.setCancelled _))
  | @refuse v hc =>
    exact hk.aside hs (.note (fun _ he => nomatch he)
      fun _ => ⟨(fun he => nomatch he), (fun he => nomatch he), (fun he => nomatch he)⟩)
  | request hc hx hp hT => exact hk.request hs hT
  | unserved e hi he => exact hk.giveUp hs hi rfl
  | withdraw hi => exact hk.giveUp hs hi rfl
  | serve hi hc hp => exact hk.serve hs hi hp
  | enterNested hx => exact hk.enterNested hs hx
  | leaveNested outcome hi => exact hk.leaveNested hs outcome hi
  | defer effect hx => exact hk.defer hs effect hx
  | close outcome hi hx hT => exact hk.close hs outcome hi hx hT
  | @stray v h s hi hx =>
    refine hk.settleEnd hs [.returned v h (.error (.transaction .noActiveTransaction)),
      .strayed v h] hi rfl (fun m hm => ?_) fun hv ho hl => ?_
    · rcases List.mem_pair.mp hm with rfl | rfl
      · exact isClosing_returned ..
      · exact ⟨rfl, fun _ => rfl, fun _ _ => by simp, fun _ _ => by simp⟩
    · obtain rfl : v = u := hv
      exact hl.stray hi hx ho
  | interrupt hi hT => exact hk.interrupt hs hi hT
  | @committed v h effects value s hi =>
    refine hk.settleOn hs [.ended .commit h none] hi rfl rfl rfl rfl
      (fun _ he => nomatch he) (List.forall_mem_singleton.mpr (isClosing_ended ..))
      fun hv ho hl => ?_
    obtain rfl : v = u := hv
    exact hl.committed hi ho
  | @commitFailed v h effects value s reason hi =>
    refine hk.settleEnd hs [.returned v h (.error (.transaction (.commitFailed reason))),
      .ended .commit h (some reason)] hi rfl (fun m hm => ?_) fun hv ho hl => ?_
    · rcases List.mem_pair.mp hm with rfl | rfl
      · exact isClosing_returned ..
      · exact isClosing_ended ..
    · obtain rfl : v = u := hv
      exact hl.commitFailed reason hi ho
  | @rolledBack v h outcome s failure hi =>
    refine hk.settleEnd hs [.returned v h outcome, .ended .rollback h failure] hi rfl
      (fun m hm => ?_) fun hv ho hl => ?_
    · rcases List.mem_pair.mp hm with rfl | rfl
      · exact isClosing_returned ..
      · exact isClosing_ended ..
    · obtain rfl : v = u := hv
      exact hl.rolledBack failure hi ho
  | @dropCall i h s hi hc =>
    have hh : i.handle? = some h := by cases i <;> first | exact hc | cases hc
    refine hk.settleEnd hs [.callDropped h] hi hh (List.forall_mem_singleton.mpr ?_)
      fun hv ho hl => hl.dropCall hi hc ho hv
    exact ⟨rfl, fun _ => rfl, fun _ _ => by simp, fun _ _ => by simp⟩
  | @startEffect v h index effect rest value s hi =>
    refine hk.settleOn hs [.effectStarted v h index effect] hi rfl rfl rfl rfl
      (fun _ he => nomatch he) (List.forall_mem_singleton.mpr ?_) fun hv ho hl => ?_
    · exact ⟨rfl, fun _ => rfl, fun _ _ => by simp, fun _ _ => by simp⟩
    · obtain rfl : v = u := hv
      exact hl.startEffect hi ho
  | @finishEffects v h index value s hi =>
    refine hk.settleEnd hs [.returned v h (.ok value)] hi rfl
      (List.forall_mem_singleton.mpr (isClosing_returned ..)) fun hv ho hl => ?_
    obtain rfl : v = u := hv
    exact hl.finishEffects hi ho
  | @dropEffects v h index rest value s hi =>
    refine hk.settleEnd hs [] hi rfl (by simp) fun hv ho hl => ?_
    obtain rfl : v = u := hv
    exact hl.dropEffects hi ho
  | direct t hx hT => exact hk.direct hs t hx hT
  | @directEnded v h s t failure hi =>
    refine hk.settleEnd hs [.ended t h failure] hi rfl
      (List.forall_mem_singleton.mpr (isClosing_ended ..)) fun hv ho hl => ?_
    obtain rfl : v = u := hv
    exact absurd (hi ▸ Multiset.mem_cons_self _ s) (hl.undirected h)
  | @startCleanup h b due failure hb =>
    exact hk.cleanup hs hb (.inr ⟨.waiting h due failure, rfl, rfl⟩) (isClosing_ending ..)
      fun ho hl => hl.startCleanup due failure hb ho
  | @endCleanup h b due failure hb =>
    exact hk.cleanup hs hb (.inl rfl) (isClosing_ended ..) fun ho hl => hl.endCleanup hb ho

/-- Every act keeps the invariant. -/
theorem Invariant.act {l l' : Ledger H} (hl : Invariant T l) (hact : Act T T l l') :
    Invariant T l' :=
  ⟨hl.sound.act hact, fun u => (hl.kept u).act hl.sound hact⟩

/-- Acts one after another keep the invariant. -/
theorem Invariant.acts {l l' : Ledger H} (hl : Invariant T l) (hacts : Acts T T l l') :
    Invariant T l' := by
  induction hacts with
  | refl => exact hl
  | tail _ hact ih => exact ih.act hact

end BootEngine.Work
