import BootEngine.Proofs.Work.Account

/-!
# Sound ledgers

What holds in every run, whatever its programs do: each transaction is opened once, by one unit, and
under a number that nothing has used before; contexts and scopes stand on transactions that their
own unit has opened; and the account of a transaction knows how many nested scopes run on it.

Contents:
* `Ledger.Unused`, `Sound`: the invariant.
* `Sound.note`, `Sound.drop`, `Sound.add` and the like: the single changes that keep it.
* `Sound.act`: every act keeps it.
-/

namespace BootEngine.Work

open Transaction (Terminal Handle Context)

variable {H : Host} {T D : UnitId → Prop}

/-- No transaction with this number has been seen yet. -/
structure Ledger.Unused (h : Handle) (l : Ledger H) : Prop where
  account : l.account h = {}
  background : ∀ c ∈ l.background, c.handle ≠ h

/-- The number of scopes for which a transaction has been set aside. -/
def promises (h : Handle) (s : Multiset (Item H)) : Nat := s.countP fun i => i.isPromised h

/-- The number of nested scopes on a transaction. -/
def nestedsOn (h : Handle) (s : Multiset (Item H)) : Nat := s.countP fun i => i.isNestedOn h

/-- What holds in every run. -/
structure Sound (l : Ledger H) : Prop where
  /-- Scopes stand on transactions that their unit has opened. -/
  items : ∀ i ∈ l.items, ∀ h, i.handle? = some h → (l.account h).opener = some i.unit
  /-- So do contexts. -/
  contexts : ∀ u c, l.contexts u = some c → (l.account c.handle).opener = some u
  /-- Later numbers are unused. -/
  fresh : ∀ h, l.next ≤ h → l.Unused h
  /-- A transaction that has been set aside has an earlier number, which is unused, too. -/
  promised : ∀ h, promises h l.items ≠ 0 → h < l.next ∧ l.Unused h
  /-- A transaction is set aside for one scope. -/
  once : ∀ h, promises h l.items ≤ 1
  /-- The account of a transaction counts its nested scopes. -/
  running : ∀ h, (l.account h).running = nestedsOn h l.items

/-! ## Accounts and single marks -/

section Accounts

variable (l : Ledger H) (m : Mark H) {h : Handle}

/-- A mark that neither opens a transaction nor belongs to a nested scope. -/
def Mark.isPlain : Mark H → Bool
  | .opened .. => false
  | .nestedBegun .. => false
  | .nestedEnded .. => false
  | _ => true

theorem account_note_self (hm : m.handle? = some h) :
    (l.note m).account h = (l.account h).note m := account_cons_self l.marks hm

theorem account_note_of_ne (hm : m.handle? ≠ some h) : (l.note m).account h = l.account h :=
  account_cons_of_ne l.marks hm

theorem account_note_other {h' : Handle} (hm : m.handle? = some h) (hh : h ≠ h') :
    (l.note m).account h' = l.account h' :=
  account_note_of_ne l m fun he => hh (Option.some.inj (hm.symm.trans he))

theorem opener_note (hm : ∀ u h, m ≠ .opened u h) (h : Handle) :
    ((l.note m).account h).opener = (l.account h).opener := by
  by_cases hh : m.handle? = some h
  · rw [account_note_self l m hh]
    cases m with
    | opened u h' => exact absurd rfl (hm u h')
    | _ => rfl
  · rw [account_note_of_ne l m hh]

theorem running_note_of_isPlain (hm : m.isPlain = true) (h : Handle) :
    ((l.note m).account h).running = (l.account h).running := by
  by_cases hh : m.handle? = some h
  · rw [account_note_self l m hh]
    cases m <;> first | rfl | cases hm
  · rw [account_note_of_ne l m hh]

theorem ne_opened_of_isPlain {m : Mark H} (hm : m.isPlain = true) (u : UnitId) (h : Handle) :
    m ≠ .opened u h := by
  rintro rfl
  cases hm

end Accounts

theorem Ledger.Unused.note {l : Ledger H} {m : Mark H} {h : Handle} (hu : l.Unused h)
    (hm : m.handle? ≠ some h) : (l.note m).Unused h :=
  ⟨(account_note_of_ne l m hm).trans hu.account, hu.background⟩

theorem Ledger.Unused.opener {l : Ledger H} {h : Handle} (hu : l.Unused h) :
    (l.account h).opener = none := by
  rw [hu.account]

theorem Ledger.not_unused_of_opener {l : Ledger H} {h : Handle} {u : UnitId}
    (ho : (l.account h).opener = some u) : ¬ l.Unused h := by
  intro hu
  rw [hu.opener] at ho
  cases ho

namespace Sound

variable {l : Ledger H}

/-! ## Single changes -/

/-- A mark about no transaction, or about one that has been seen. -/
theorem note (hl : Sound l) {m : Mark H} (hm : m.isPlain = true)
    (hh : ∀ h, m.handle? = some h → ¬ l.Unused h) : Sound (l.note m) where
  items i hi h ho := (opener_note l m (ne_opened_of_isPlain hm) h).trans (hl.items i hi h ho)
  contexts u c hx := (opener_note l m (ne_opened_of_isPlain hm) _).trans (hl.contexts u c hx)
  fresh h hn := (hl.fresh h hn).note fun hmh => hh h hmh (hl.fresh h hn)
  promised h hp :=
    have hu := hl.promised h hp
    ⟨hu.1, hu.2.note fun hmh => hh h hmh hu.2⟩
  once := hl.once
  running h := (running_note_of_isPlain l m hm h).trans (hl.running h)

/-- The source moves on. -/
theorem upTo (hl : Sound l) {n : Handle} (hn : l.next ≤ n) : Sound (l.upTo n) where
  items := hl.items
  contexts := hl.contexts
  fresh h hh := ⟨(hl.fresh h (Nat.le_trans hn hh)).account,
    (hl.fresh h (Nat.le_trans hn hh)).background⟩
  promised h hp :=
    have hu := hl.promised h hp
    ⟨Nat.lt_of_lt_of_le hu.1 hn, hu.2.account, hu.2.background⟩
  once := hl.once
  running := hl.running

/-- A scope that is not nested ends. -/
theorem drop (hl : Sound l) {i : Item H} {s : Multiset (Item H)} (hi : l.items = i ::ₘ s)
    (hn : ∀ h, i.isNestedOn h = false) : Sound (l.holding s) where
  items j hj := hl.items j (hi ▸ Multiset.mem_cons_of_mem hj)
  contexts := hl.contexts
  fresh h hh := ⟨(hl.fresh h hh).account, (hl.fresh h hh).background⟩
  promised h hp := by
    have hu := hl.promised h (by
      rw [hi, promises, Multiset.countP_cons]
      exact fun h0 => hp (Nat.eq_zero_of_add_eq_zero_right h0))
    exact ⟨hu.1, hu.2.account, hu.2.background⟩
  once h := by
    have ho := hl.once h
    rw [hi, promises, Multiset.countP_cons] at ho
    exact Nat.le_trans (Nat.le_add_right _ _) ho
  running h := by
    have hr := hl.running h
    rwa [hi, nestedsOn, Multiset.countP_cons, hn h] at hr

/-- A scope that is not nested begins, on a transaction that its unit has opened, if any. -/
theorem add (hl : Sound l) {i : Item H}
    (ho : ∀ h, i.handle? = some h → (l.account h).opener = some i.unit)
    (hn : ∀ h, i.isNestedOn h = false) (hp : ∀ h, i.isPromised h = false) :
    Sound (l.holding (i ::ₘ l.items)) where
  items j hj := by
    rcases Multiset.mem_cons.mp hj with rfl | hj
    · exact ho
    · exact hl.items j hj
  contexts := hl.contexts
  fresh h hh := ⟨(hl.fresh h hh).account, (hl.fresh h hh).background⟩
  promised h hq := by
    have hu := hl.promised h (by
      intro h0
      apply hq
      show promises h (i ::ₘ l.items) = 0
      rw [promises, Multiset.countP_cons, hp h]
      exact h0)
    exact ⟨hu.1, hu.2.account, hu.2.background⟩
  once h := by
    show promises h (i ::ₘ l.items) ≤ 1
    rw [promises, Multiset.countP_cons, hp h]
    exact hl.once h
  running h := by
    show (l.account h).running = nestedsOn h (i ::ₘ l.items)
    rw [nestedsOn, Multiset.countP_cons, hn h]
    exact hl.running h

/-- A scope is followed by another one on the same transaction. -/
theorem exchange (hl : Sound l) {i j : Item H} {s : Multiset (Item H)} (hi : l.items = i ::ₘ s)
    (hni : ∀ h, i.isNestedOn h = false) (hh : j.handle? = i.handle?) (hu : j.unit = i.unit)
    (hnj : ∀ h, j.isNestedOn h = false) (hp : ∀ h, j.isPromised h = false) :
    Sound (l.holding (j ::ₘ s)) := by
  have hopener : ∀ h, j.handle? = some h → (l.account h).opener = some j.unit := by
    intro h hj
    rw [hu]
    exact hl.items i (hi ▸ Multiset.mem_cons_self i s) h (hh ▸ hj)
  exact (hl.drop hi hni).add hopener hnj hp

theorem setContext (hl : Sound l) {u : UnitId} {x : Option (Context (List (Step H)))}
    (hx : ∀ c, x = some c → (l.account c.handle).opener = some u) : Sound (l.setContext u x) where
  items := hl.items
  contexts v c hc := by
    have hv : Function.update l.contexts u x v = some c := hc
    by_cases hvu : v = u
    · subst hvu
      rw [Function.update_self] at hv
      exact hx c hv
    · rw [Function.update_of_ne hvu] at hv
      exact hl.contexts v c hv
  fresh h hh := ⟨(hl.fresh h hh).account, (hl.fresh h hh).background⟩
  promised h hp := ⟨(hl.promised h hp).1, (hl.promised h hp).2.account,
    (hl.promised h hp).2.background⟩
  once := hl.once
  running := hl.running

/-- A rollback in the background goes on, begins or ends. -/
theorem setBackground (hl : Sound l) {b : Multiset Cleanup}
    (hb : ∀ c ∈ b, ¬ l.Unused c.handle) : Sound { l with background := b } := by
  have hkeep : ∀ h, l.Unused h → Ledger.Unused h { l with background := b } := fun h hu =>
    ⟨hu.account, fun c hc hch => hb c hc (hch ▸ hu)⟩
  exact ⟨hl.items, hl.contexts, fun h hh => hkeep h (hl.fresh h hh),
    fun h hp => ⟨(hl.promised h hp).1, hkeep h (hl.promised h hp).2⟩, hl.once, hl.running⟩

theorem beginNested (hl : Sound l) {u : UnitId} {h : Handle}
    (ho : (l.account h).opener = some u) :
    Sound ((l.note (.nestedBegun u h)).holding (.nested u h ::ₘ l.items)) := by
  have hopener := opener_note l (.nestedBegun u h) (fun _ _ => by simp)
  have hunused : ∀ h', l.Unused h' → (l.note (.nestedBegun u h)).Unused h' := fun h' hu =>
    hu.note fun he => Ledger.not_unused_of_opener ho (Option.some.inj he ▸ hu)
  refine ⟨fun i hi h' hh => ?_, fun v c hx => ?_, fun h' hn => ?_, fun h' hp => ?_, fun h' => ?_,
    fun h' => ?_⟩
  · refine (hopener h').trans ?_
    rcases Multiset.mem_cons.mp hi with rfl | hi
    · rw [← Option.some.inj hh]
      exact ho
    · exact hl.items i hi h' hh
  · exact (hopener _).trans (hl.contexts v c hx)
  · have hu := hunused h' (hl.fresh h' hn)
    exact ⟨hu.account, hu.background⟩
  · have hpast : promises h' l.items ≠ 0 := by
      intro h0
      apply hp
      show promises h' (.nested u h ::ₘ l.items) = 0
      rw [promises, Multiset.countP_cons]
      exact h0
    have hu := hunused h' (hl.promised h' hpast).2
    exact ⟨(hl.promised h' hpast).1, hu.account, hu.background⟩
  · show promises h' (.nested u h ::ₘ l.items) ≤ 1
    rw [promises, Multiset.countP_cons]
    exact hl.once h'
  · show ((l.note (.nestedBegun u h)).account h').running = nestedsOn h' (.nested u h ::ₘ l.items)
    rw [nestedsOn, Multiset.countP_cons]
    by_cases hh : h = h'
    · subst hh
      rw [account_note_self l _ rfl, if_pos (by simp [Item.isNestedOn])]
      exact congrArg (· + 1) (hl.running h)
    · rw [account_note_other l (.nestedBegun u h) rfl hh,
        if_neg (by simpa [Item.isNestedOn] using hh)]
      exact hl.running h'

theorem endNested (hl : Sound l) {u : UnitId} {h : Handle} {s : Multiset (Item H)}
    (outcome : Option (Outcome H)) (hi : l.items = .nested u h ::ₘ s) :
    Sound ((l.note (.nestedEnded u h outcome)).holding s) := by
  have ho : (l.account h).opener = some u :=
    hl.items (.nested u h) (hi ▸ Multiset.mem_cons_self _ s) h rfl
  have hopener := opener_note l (.nestedEnded u h outcome) (fun _ _ => by simp)
  have hunused : ∀ h', l.Unused h' → (l.note (.nestedEnded u h outcome)).Unused h' := fun h' hu =>
    hu.note fun he => Ledger.not_unused_of_opener ho (Option.some.inj he ▸ hu)
  have hpromises : ∀ h', promises h' l.items = promises h' s := fun h' => by
    rw [hi, promises, Multiset.countP_cons]
    exact Nat.add_zero _
  refine ⟨fun i hs h' hh => ?_, fun v c hx => ?_, fun h' hn => ?_, fun h' hp => ?_, fun h' => ?_,
    fun h' => ?_⟩
  · exact (hopener h').trans (hl.items i (hi ▸ Multiset.mem_cons_of_mem hs) h' hh)
  · exact (hopener _).trans (hl.contexts v c hx)
  · have hu := hunused h' (hl.fresh h' hn)
    exact ⟨hu.account, hu.background⟩
  · have hpast : promises h' l.items ≠ 0 := (hpromises h').symm ▸ hp
    have hu := hunused h' (hl.promised h' hpast).2
    exact ⟨(hl.promised h' hpast).1, hu.account, hu.background⟩
  · exact hpromises h' ▸ hl.once h'
  · have hr := hl.running h'
    rw [hi, nestedsOn, Multiset.countP_cons] at hr
    show ((l.note (.nestedEnded u h outcome)).account h').running = nestedsOn h' s
    by_cases hh : h = h'
    · subst hh
      rw [account_note_self l _ rfl]
      rw [if_pos (by simp [Item.isNestedOn])] at hr
      exact (congrArg (· - 1) hr).trans (Nat.add_sub_cancel _ _)
    · rw [account_note_other l (.nestedEnded u h outcome) rfl hh]
      rwa [if_neg (by simpa [Item.isNestedOn] using hh)] at hr

/-- A transaction is set aside for a scope. -/
theorem promise (hl : Sound l) {u : UnitId} {h : Handle} (hu : l.Unused h) (hn : h < l.next)
    (hp : promises h l.items = 0) : Sound (l.holding (.acquiring u (some h) ::ₘ l.items)) := by
  have hcount : ∀ h', promises h' (.acquiring u (some h) ::ₘ l.items) =
      promises h' l.items + if h = h' then 1 else 0 := by
    intro h'
    rw [promises, Multiset.countP_cons]
    by_cases hh : h = h' <;> simp [Item.isPromised, promises, hh]
  refine ⟨fun i hi h' hh => ?_, hl.contexts, fun h' hn' => ?_, fun h' hp' => ?_, fun h' => ?_,
    fun h' => ?_⟩
  · rcases Multiset.mem_cons.mp hi with rfl | hi
    · cases hh
    · exact hl.items i hi h' hh
  · exact ⟨(hl.fresh h' hn').account, (hl.fresh h' hn').background⟩
  · by_cases hh : h = h'
    · subst hh
      exact ⟨hn, hu.account, hu.background⟩
    · have hpast : promises h' l.items ≠ 0 := by
        have hp' : promises h' (.acquiring u (some h) ::ₘ l.items) ≠ 0 := hp'
        rwa [hcount, if_neg hh] at hp'
      have hu' := hl.promised h' hpast
      exact ⟨hu'.1, hu'.2.account, hu'.2.background⟩
  · show promises h' (.acquiring u (some h) ::ₘ l.items) ≤ 1
    rw [hcount]
    split
    · next hh => rw [← hh, hp]
    · exact hl.once h'
  · show (l.account h').running = nestedsOn h' (.acquiring u (some h) ::ₘ l.items)
    rw [nestedsOn, Multiset.countP_cons]
    exact hl.running h'

/-- A transaction that nobody has used before is opened. -/
theorem opened (hl : Sound l) (u : UnitId) {h : Handle} (hu : l.Unused h) (hn : h < l.next)
    (hp : promises h l.items = 0) : Sound (l.note (.opened u h)) := by
  have hkeep : ∀ h', l.Unused h' → h ≠ h' → (l.note (.opened u h)).Unused h' := fun h' hu' hh =>
    hu'.note fun he => hh (Option.some.inj he)
  have hopener : ∀ h' v, (l.account h').opener = some v →
      ((l.note (.opened u h)).account h').opener = some v := by
    intro h' v hv
    by_cases hh : h = h'
    · subst hh
      exact absurd hu (Ledger.not_unused_of_opener hv)
    · rw [account_note_other l (.opened u h) rfl hh]
      exact hv
  refine ⟨fun i hi h' hh => hopener h' _ (hl.items i hi h' hh),
    fun v c hx => hopener _ v (hl.contexts v c hx), fun h' hn' => ?_, fun h' hp' => ?_, hl.once,
    fun h' => ?_⟩
  · have hn' : l.next ≤ h' := hn'
    exact hkeep h' (hl.fresh h' hn') (Nat.ne_of_lt (Nat.lt_of_lt_of_le hn hn'))
  · refine ⟨(hl.promised h' hp').1, hkeep h' (hl.promised h' hp').2 ?_⟩
    rintro rfl
    exact hp' hp
  · by_cases hh : h = h'
    · subst hh
      rw [account_note_self l _ rfl]
      exact hl.running h
    · rw [account_note_other l (.opened u h) rfl hh]
      exact hl.running h'

theorem setCancelled (hl : Sound l) (f : UnitId → Bool) : Sound { l with cancelled := f } where
  items := hl.items
  contexts := hl.contexts
  fresh h hh := ⟨(hl.fresh h hh).account, (hl.fresh h hh).background⟩
  promised h hp := ⟨(hl.promised h hp).1, (hl.promised h hp).2.account,
    (hl.promised h hp).2.background⟩
  once := hl.once
  running := hl.running

/-- A mark about a transaction that a unit has opened. -/
theorem noteOn (hl : Sound l) {m : Mark H} {u : UnitId} {h : Handle} (hm : m.isPlain = true)
    (hh : m.handle? = some h) (ho : (l.account h).opener = some u) : Sound (l.note m) :=
  hl.note hm fun _ he => Ledger.not_unused_of_opener (Option.some.inj (hh.symm.trans he) ▸ ho)

/-! ## Acts -/

theorem opener_of_eq_cons (hl : Sound l) {i : Item H} {h : Handle} {s : Multiset (Item H)}
    (hi : l.items = i ::ₘ s) (hh : i.handle? = some h) : (l.account h).opener = some i.unit :=
  hl.items i (hi ▸ Multiset.mem_cons_self i s) h hh

/-- A transaction that a scope receives is unused, and nobody else waits for it. -/
theorem fresh_of_serve (hl : Sound l) {u : UnitId} {p : Option Handle} {h n : Handle}
    {s : Multiset (Item H)} (hi : l.items = .acquiring u p ::ₘ s)
    (hp : p = some h ∧ n = l.next ∨ p = none ∧ h = l.next ∧ n = l.next + 1) :
    l.Unused h ∧ h < n ∧ l.next ≤ n ∧ promises h s = 0 := by
  have hcount : ∀ q, promises q l.items = promises q s + if p = some q then 1 else 0 := by
    intro q
    rw [hi, promises, Multiset.countP_cons]
    by_cases hq : p = some q <;> simp [Item.isPromised, promises, hq]
  rcases hp with ⟨rfl, rfl⟩ | ⟨rfl, rfl, rfl⟩
  · have hmine := hcount h
    rw [if_pos rfl] at hmine
    have hu := hl.promised h (by rw [hmine]; exact Nat.succ_ne_zero _)
    have hone := hl.once h
    exact ⟨hu.2, hu.1, Nat.le_refl _, by omega⟩
  · refine ⟨hl.fresh _ (Nat.le_refl _), Nat.lt_succ_self _, Nat.le_succ _, ?_⟩
    have hmine := hcount l.next
    rw [if_neg (by simp), Nat.add_zero] at hmine
    rw [← hmine]
    exact by_contra fun h0 => Nat.lt_irrefl _ (hl.promised _ h0).1

theorem serve (hl : Sound l) {u : UnitId} {p : Option Handle} {h n : Handle}
    {s : Multiset (Item H)} (hi : l.items = .acquiring u p ::ₘ s)
    (hp : p = some h ∧ n = l.next ∨ p = none ∧ h = l.next ∧ n = l.next + 1) :
    Sound (((l.openContext u h).upTo n).holding (.outer u h ::ₘ s)) := by
  obtain ⟨hu, hn, hnext, hnone⟩ := hl.fresh_of_serve hi hp
  have hopened : Sound (((l.holding s).upTo n).note (.opened u h)) :=
    ((hl.drop hi fun _ => rfl).upTo hnext).opened u ⟨hu.account, hu.background⟩ hn hnone
  have hopener : ((((l.holding s).upTo n).note (.opened u h)).account h).opener = some u :=
    congrArg Account.opener (account_note_self _ _ rfl)
  have houter := hopened.add (i := .outer u h)
    (fun _ he => Option.some.inj he ▸ hopener) (fun _ => rfl) (fun _ => rfl)
  have hset := houter.setContext (u := u) (x := some (.start h))
    fun _ he => Option.some.inj he ▸ hopener
  have hreplaced : ∀ c, l.contexts u = some c →
      Sound ((((((l.holding s).upTo n).note (.opened u h)).holding (.outer u h ::ₘ s)).setContext u
        (some (.start h))).note (.replaced u c.handle)) := by
    intro c hc
    have ho := hl.contexts u c hc
    refine hset.noteOn (u := u) rfl rfl ?_
    show ((((l.holding s).upTo n).note (.opened u h)).account c.handle).opener = some u
    have hne : h ≠ c.handle := fun he => Ledger.not_unused_of_opener ho (he ▸ hu)
    rw [account_note_other _ (.opened u h) rfl hne]
    exact ho
  unfold Ledger.openContext
  dsimp only
  split
  · exact hset
  · next c hc => exact hreplaced c hc

/-- Every act keeps a ledger sound. -/
theorem act {l' : Ledger H} (hl : Sound l) (hact : Act T D l l') : Sound l' := by
  cases hact with
  | advance hn => exact hl.upTo hn
  | cancel u =>
    have hmark : Sound (l.note (.cancelled u)) := hl.note rfl fun _ he => nomatch he
    exact hmark.setCancelled _
  | refuse hc => exact hl.note rfl fun _ he => nomatch he
  | @request u p n hc hx hp hT =>
    have hmark : Sound (l.note (.requested u)) := hl.note rfl fun _ he => nomatch he
    rcases hp with ⟨rfl, hn⟩ | ⟨rfl, rfl⟩
    · exact (hmark.upTo hn).add (fun _ he => nomatch he) (fun _ => rfl) fun _ => rfl
    · have hu := hmark.fresh l.next (Nat.le_refl _)
      exact (hmark.upTo (Nat.le_succ _)).promise ⟨hu.account, hu.background⟩ (Nat.lt_succ_self _)
        (by_contra fun h0 => Nat.lt_irrefl _ (hl.promised _ h0).1)
  | unserved e hi he => exact (hl.drop hi fun _ => rfl).note rfl fun _ he => nomatch he
  | withdraw hi => exact (hl.drop hi fun _ => rfl).note rfl fun _ he => nomatch he
  | serve hi hc hp => exact hl.serve hi hp
  | @enterNested u c hx =>
    have ho := hl.contexts u c hx
    refine (hl.beginNested ho).setContext fun d hd => ?_
    rw [← Option.some.inj hd]
    exact (opener_note l _ (fun _ _ => by simp) _).trans ho
  | @leaveNested u h s outcome hi =>
    have hend := hl.endNested outcome hi
    unfold Ledger.leaveNested
    dsimp only
    split
    · exact hend
    · next c hx =>
      refine hend.setContext fun d hd => ?_
      have hhandle : d.handle = c.handle := by
        rw [← Option.some.inj hd]
        split <;> simp
      rw [hhandle]
      exact (opener_note l _ (fun _ _ => by simp) _).trans (hl.contexts u c hx)
  | @defer u c effect hx =>
    have ho := hl.contexts u c hx
    have hmark : Sound (l.note (.deferred u c.handle effect)) := hl.noteOn rfl rfl ho
    refine hmark.setContext fun d hd => ?_
    rw [← Option.some.inj hd, Context.handle_defer]
    exact (opener_note l _ (fun _ _ => by simp) _).trans ho
  | @close u h c s outcome hi hx hT =>
    have ho := hl.opener_of_eq_cons hi rfl
    have hwork : ∀ cancelled, (Item.ofWork u h c cancelled outcome).handle? = some h ∧
        (Item.ofWork u h c cancelled outcome).unit = u ∧
        (∀ h', (Item.ofWork u h c cancelled outcome).isNestedOn h' = false) ∧
        ∀ h', (Item.ofWork u h c cancelled outcome).isPromised h' = false := by
      intro cancelled
      obtain ⟨_, _, he⟩ | ⟨_, he⟩ := Item.ofWork_cases u h c cancelled outcome
      all_goals
        rw [he]
        exact ⟨rfl, rfl, fun _ => rfl, fun _ => rfl⟩
    obtain ⟨hh, hu, hn, hp⟩ := hwork (l.cancelled u)
    have hnext := hl.exchange hi (fun _ => rfl) (j := Item.ofWork u h c (l.cancelled u) outcome)
      hh hu hn hp
    have hended := hnext.noteOn (m := .workEnded u h outcome (l.cancelled u)) rfl rfl ho
    have hnone := hended.setContext (u := u) (x := none) fun _ he => nomatch he
    exact hnone.noteOn rfl rfl ((opener_note _ _ (fun _ _ => by simp) _).trans ho)
  | @stray u h s hi hx =>
    have ho := hl.opener_of_eq_cons hi rfl
    have hmark := (hl.drop hi fun _ => rfl).noteOn (m := .strayed u h) rfl rfl ho
    exact hmark.noteOn rfl rfl ((opener_note _ _ (fun _ _ => by simp) _).trans ho)
  | @interrupt u h s hi hT =>
    have ho := hl.opener_of_eq_cons hi rfl
    have hmark := (hl.drop hi fun _ => rfl).noteOn (m := .interrupted u h) rfl rfl ho
    unfold Ledger.interrupt
    dsimp only
    split
    · exact hmark
    · next c hx =>
      have hc : (((l.holding s).note (.interrupted u h)).account c.handle).opener = some u :=
        (opener_note _ _ (fun _ _ => by simp) _).trans (hl.contexts u c hx)
      have hnone := hmark.setContext (u := u) (x := none) fun _ he => nomatch he
      split
      · refine hnone.setBackground fun d hd => ?_
        rcases Multiset.mem_cons.mp hd with rfl | hd
        · exact Ledger.not_unused_of_opener hc
        · exact fun hu => hu.background d hd rfl
      · exact hnone.noteOn rfl rfl hc
  | @committed u h effects value s hi =>
    exact (hl.exchange hi (fun _ => rfl) (j := .effects u h 0 effects value) rfl rfl (fun _ => rfl)
      fun _ => rfl).noteOn rfl rfl (hl.opener_of_eq_cons hi rfl)
  | @commitFailed u h effects value s reason hi =>
    have ho := hl.opener_of_eq_cons hi rfl
    have hmark := (hl.drop hi fun _ => rfl).noteOn (m := .ended .commit h (some reason)) rfl rfl ho
    exact hmark.noteOn rfl rfl ((opener_note _ _ (fun _ _ => by simp) _).trans ho)
  | @rolledBack u h outcome s failure hi =>
    have ho := hl.opener_of_eq_cons hi rfl
    have hmark := (hl.drop hi fun _ => rfl).noteOn (m := .ended .rollback h failure) rfl rfl ho
    exact hmark.noteOn rfl rfl ((opener_note _ _ (fun _ _ => by simp) _).trans ho)
  | @dropCall i h s hi hc =>
    have hkind : i.handle? = some h ∧ ∀ h', i.isNestedOn h' = false := by
      cases i <;> first | exact ⟨hc, fun _ => rfl⟩ | cases hc
    exact (hl.drop hi hkind.2).noteOn rfl rfl (hl.opener_of_eq_cons hi hkind.1)
  | @startEffect u h index effect rest value s hi =>
    exact (hl.exchange hi (fun _ => rfl) (j := .effects u h (index + 1) rest value) rfl rfl
      (fun _ => rfl) fun _ => rfl).noteOn rfl rfl (hl.opener_of_eq_cons hi rfl)
  | finishEffects hi =>
    exact (hl.drop hi fun _ => rfl).noteOn rfl rfl (hl.opener_of_eq_cons hi rfl)
  | dropEffects hi => exact hl.drop hi fun _ => rfl
  | @direct u c terminal hx hT =>
    have ho := hl.contexts u c hx
    have hmark := hl.noteOn (m := .direct u c.handle) rfl rfl ho
    have hadd := hmark.add (i := .direct u c.handle)
      (fun _ he => Option.some.inj he ▸ (opener_note _ _ (fun _ _ => by simp) _).trans ho)
      (fun _ => rfl) fun _ => rfl
    exact hadd.noteOn rfl rfl ((opener_note _ _ (fun _ _ => by simp) _).trans ho)
  | directEnded terminal failure hi =>
    exact (hl.drop hi fun _ => rfl).noteOn rfl rfl (hl.opener_of_eq_cons hi rfl)
  | @startCleanup h b due failure hb =>
    have hseen : ∀ d ∈ l.background, ¬ l.Unused d.handle := fun d hd hu => hu.background d hd rfl
    have hin : Cleanup.fresh h ∈ l.background := hb ▸ Multiset.mem_cons_self _ b
    have hmark : Sound (l.note (.ending .rollback h)) :=
      hl.note rfl fun _ he => Option.some.inj he ▸ hseen _ hin
    refine hmark.setBackground fun d hd hu => ?_
    rcases Multiset.mem_cons.mp hd with rfl | hd
    · exact hu.background _ hin rfl
    · exact hu.background d (hb ▸ Multiset.mem_cons_of_mem hd) rfl
  | @endCleanup h b due failure hb =>
    have hin : Cleanup.waiting h due failure ∈ l.background := hb ▸ Multiset.mem_cons_self _ b
    have hmark : Sound (l.note (.ended .rollback h failure)) :=
      hl.note rfl fun _ he hu => hu.background _ hin (Option.some.inj he)
    exact hmark.setBackground fun d hd hu =>
      hu.background d (hb ▸ Multiset.mem_cons_of_mem hd) rfl

end Sound

end BootEngine.Work
