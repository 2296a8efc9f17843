import BootEngine.Proofs.Work.Sound

/-!
# The lives of transactions

In every run the account of a transaction fits together with those who still have to do something
for it, as long as programs leave it to the scopes to end it. A context that is overwritten by
another scope does not break this, unless work is cut off, too: then a rollback may hit the wrong
transaction. On units that are used in order neither happens, and there the account tells exactly
why a transaction was rolled back.

Contents:
* `IsMixed`, `Regular`: contexts have been overwritten; the runs that are looked at.
* `Lives`: the accounts of a unit's transactions fit.
* `Orderly`: what holds of units that are used in order.
* `Fits.of_outer`, `Fits.of_committing` and the like: what the keeper tells about the account.
* `Apart`, `Lives.apart`: changes that leave the transactions of a unit alone.
* `Lives.at`: changes that touch one of them.
-/

namespace BootEngine.Work

open Transaction (Terminal Handle Context)

variable {H : Host} {T : UnitId → Prop}

/-- A context of a unit has been overwritten by another one. -/
def IsMixed (u : UnitId) (marks : List (Mark H)) : Prop := ∃ h, Mark.replaced u h ∈ marks

/-- Programs have not ended transactions of a unit themselves; and if contexts of it have been
    overwritten, then no work of it has been cut off. -/
structure Regular (u : UnitId) (marks : List (Mark H)) : Prop where
  undirected : ∀ h, Mark.direct u h ∉ marks
  unmixed_or_uncut : ¬ IsMixed u marks ∨ ∀ h, Mark.interrupted u h ∉ marks

/-- The accounts of a unit's transactions fit; its context belongs to work that goes on. -/
structure Lives (T : UnitId → Prop) (u : UnitId) (l : Ledger H) : Prop where
  undirected : ∀ h, Item.direct u h ∉ l.items
  holder : ¬ IsMixed u l.marks → ∀ c, l.contexts u = some c →
    keepers c.handle l = {.item (.outer u c.handle)}
  fits : ∀ h, (l.account h).opener = some u →
    Fits (¬ T u) (IsMixed u l.marks) u h (l.contexts u) (l.account h) (keepers h l)

/-- What holds of a unit that is used in order: at most one outermost scope waits or works, nested
    scopes stand on its transaction, and none is left when its work ends. -/
structure Orderly (u : UnitId) (l : Ledger H) : Prop where
  alone : seats u l.items ≤ 1
  unmixed : ¬ IsMixed u l.marks
  undirected : ∀ h, Mark.direct u h ∉ l.marks
  nested : ∀ h, Item.nested u h ∈ l.items → ∃ c, l.contexts u = some c ∧ c.handle = h
  apart : ∀ h, (l.account h).opener = some u → (l.account h).overlapped = false

/-! ## Who keeps a transaction -/

section Keepers

variable {l : Ledger H} {i : Item H} {s : Multiset (Item H)} {h : Handle}

theorem keepers_of_owns (hi : l.items = i ::ₘ s) (ho : i.owns h = true) :
    keepers h l = .item i ::ₘ keepers h (l.holding s) := by
  rw [keepers, hi, scopeKeepers_cons_of_owns ho, Multiset.cons_add]
  rfl

theorem keepers_of_not_owns (hi : l.items = i ::ₘ s) (ho : i.owns h = false) :
    keepers h l = keepers h (l.holding s) := by
  rw [keepers, hi, scopeKeepers_cons_of_not_owns (by rw [ho]; simp)]
  rfl

theorem keepers_of_cleanup {c : Cleanup} {b : Multiset Cleanup} (hb : l.background = c ::ₘ b)
    (hc : c.handle = h) :
    keepers h l = .cleanup c ::ₘ keepers h { l with background := b } := by
  rw [keepers, hb, cleanupKeepers_cons_self hc, Multiset.add_cons]
  rfl

theorem keepers_of_cleanup_ne {c : Cleanup} {b : Multiset Cleanup} (hb : l.background = c ::ₘ b)
    (hc : c.handle ≠ h) : keepers h l = keepers h { l with background := b } := by
  rw [keepers, hb, cleanupKeepers_cons_of_ne hc]
  rfl

theorem handle?_of_owns (ho : i.owns h = true) : i.handle? = some h := by
  cases i <;> simp [Item.owns, Item.handle?] at ho ⊢ <;> exact ho

/-- Nobody keeps a transaction that has not been seen. -/
theorem Sound.keepers_of_unused (hl : Sound l) (hu : l.Unused h) : keepers h l = 0 := by
  have hscopes : l.items.filter (fun i => i.owns h) = 0 := by
    refine Multiset.filter_eq_nil.mpr fun i hi ho => ?_
    exact Ledger.not_unused_of_opener (hl.items i hi h (handle?_of_owns ho)) hu
  have hcleanups : l.background.filter (fun c => c.handle = h) = 0 :=
    Multiset.filter_eq_nil.mpr hu.background
  rw [keepers, scopeKeepers, cleanupKeepers, hscopes, hcleanups]
  rfl

end Keepers

/-! ## Reading off the keeper -/

section Inversion

variable {loose mixed : Prop} {u : UnitId} {h : Handle} {x : Option (Context (List (Step H)))}
  {a : Account H}

/-- A transaction has one keeper at most. -/
theorem Fits.rest_eq_zero {k : Keeper H} {r : Multiset (Keeper H)}
    (hf : Fits loose mixed u h x a (k ::ₘ r)) : r = 0 := by
  cases hf with
  | finished hk ho => exact absurd hk Multiset.cons_ne_zero
  | _ hk => exact ((Multiset.singleton_eq_cons_iff _).mp hk.symm).2

/-- What nobody keeps is over. -/
theorem Fits.over_of_keepers (hf : Fits loose mixed u h x a 0) : Over loose mixed a := by
  cases hf with
  | finished hk ho => exact ho
  | _ hk => simp at hk

theorem Fits.of_outer {v : UnitId} {h' : Handle}
    (hf : Fits loose mixed u h x a {.item (.outer v h')}) :
    a.course = {} ∧ (¬ mixed → ∃ c, x = some c ∧ c.handle = h ∧
      (c.rolledBack = false → a.failed = false ∧ c.effects = a.deferred) ∧
      (c.rolledBack = true → a.failed = true ∨ loose)) := by
  cases hf with
  | working hk hc hx => exact ⟨hc, hx⟩
  | finished hk ho => simp at hk
  | _ hk => simp at hk

theorem Fits.of_committing {v : UnitId} {h' : Handle} {effects : List (List (Step H))}
    {value : Value} (hf : Fits loose mixed u h x a {.item (.committing v h' effects value)}) :
    (¬ mixed → a.failed = false ∧ effects = a.deferred) ∧
      a.course = { work := some (some (.ok value, false)), calls := [.commit] } := by
  cases hf with
  | committing hk hf hc =>
    simp only [Multiset.singleton_inj, Keeper.item.injEq, Item.committing.injEq] at hk
    obtain ⟨-, -, rfl, rfl⟩ := hk
    exact ⟨hf, hc⟩
  | finished hk ho => simp at hk
  | _ hk => simp at hk

theorem Fits.of_rollingBack {v : UnitId} {h' : Handle} {r : Outcome H}
    (hf : Fits loose mixed u h x a {.item (.rollingBack v h' r)}) :
    ∃ o cancelled, Refusal loose a.failed cancelled r o ∧
      a.course = { work := some (some (o, cancelled)), calls := [.rollback] } := by
  cases hf with
  | rollingBack hk hr hc =>
    simp only [Multiset.singleton_inj, Keeper.item.injEq, Item.rollingBack.injEq] at hk
    obtain ⟨-, -, rfl⟩ := hk
    exact ⟨_, _, hr, hc⟩
  | finished hk ho => simp at hk
  | _ hk => simp at hk

theorem Fits.of_effects {v : UnitId} {h' : Handle} {index : Nat} {rest : List (List (Step H))}
    {value : Value} (hf : Fits loose mixed u h x a {.item (.effects v h' index rest value)}) :
    ∃ started, index = started.length ∧
      (¬ mixed → a.failed = false ∧ started ++ rest = a.deferred) ∧
      a.course =
        { work := some (some (.ok value, false)), calls := [.commit]
          answers := [(.commit, none)], started } := by
  cases hf with
  | serving hk hf hc =>
    simp only [Multiset.singleton_inj, Keeper.item.injEq, Item.effects.injEq] at hk
    obtain ⟨-, -, rfl, rfl, rfl⟩ := hk
    exact ⟨_, rfl, hf, hc⟩
  | finished hk ho => simp at hk
  | _ hk => simp at hk

theorem Fits.of_fresh {h' : Handle} (hf : Fits loose mixed u h x a {.cleanup (.fresh h')}) :
    a.course = { work := some none } := by
  cases hf with
  | waiting hk hc => exact hc
  | finished hk ho => simp at hk
  | _ hk => simp at hk

theorem Fits.of_waiting {h' : Handle} {due : Nat} {failure : Option String}
    (hf : Fits loose mixed u h x a {.cleanup (.waiting h' due failure)}) :
    a.course = { work := some none, calls := [.rollback] } := by
  cases hf with
  | cleaning hk hc => exact hc
  | finished hk ho => simp at hk
  | _ hk => simp at hk

end Inversion

/-! ## Carrying over -/

section Carrying

variable {loose mixed mixed' : Prop} {u : UnitId} {h : Handle}
  {x x' : Option (Context (List (Step H)))} {a a' : Account H} {ks : Multiset (Keeper H)}

theorem Refusal.mono {failed failed' cancelled : Bool} {r o : Outcome H}
    (hr : Refusal loose failed cancelled r o) (hf : failed = true → failed' = true ∨ loose) :
    Refusal loose failed' cancelled r o := by
  cases o with
  | error e => exact hr
  | ok v =>
    rcases hr with hc | ⟨hc, hl, hr⟩
    · exact .inl hc
    · exact .inr ⟨hc, hl.elim hf .inr, hr⟩

/-- An account whose work has ended keeps fitting while its course, the failures and, unless
    contexts are mixed, the effects stay as they are. -/
theorem Over.carry (ho : Over loose mixed a) (hm : mixed → mixed')
    (hc : a'.course = a.course) (hf : a'.failed = a.failed)
    (hd : ¬ mixed' → a'.deferred = a.deferred) : Over loose mixed' a' := by
  have hn : ¬ mixed' → ¬ mixed := fun hn hx => hn (hm hx)
  cases ho with
  | commitFailed hf' hc' => exact .commitFailed (fun hx => hf ▸ hf' (hn hx)) (hc.trans hc')
  | served hf' hc' =>
    exact .served (fun hx => ⟨hf ▸ (hf' (hn hx)).1, hd hx ▸ (hf' (hn hx)).2⟩) (hc.trans hc')
  | cut hf' hc' =>
    exact .cut (fun hx => ⟨hf ▸ (hf' (hn hx)).1, hd hx ▸ (hf' (hn hx)).2⟩) (hc.trans hc')
  | rolledBack hr hc' => exact .rolledBack (hf ▸ hr) (hc.trans hc')
  | dropped hf' hc' => exact .dropped (fun hx ht => hf ▸ hf' (hn hx) ht) (hc.trans hc')
  | cleaned hc' => exact .cleaned (hc.trans hc')
  | lost hc' => exact .lost (hc.trans hc')
  | strayed hx hc' => exact .strayed (hm hx) (hc.trans hc')

/-- A scope that has ended although its work has not found its context there. -/
theorem Over.strays (ho : Over loose mixed a) (hw : a.course.work = none) :
    mixed ∧ ∃ r, a.course = { strayed := true, returned := some r } := by
  cases ho with
  | strayed hx hc => exact ⟨hx, _, hc⟩
  | _ => simp_all

/-- The same for a transaction that somebody keeps; while its work goes on, failures and effects may
    be added to the account together with the context. -/
theorem Fits.carry (hf : Fits loose mixed u h x a ks) (hm : mixed → mixed')
    (hc : a'.course = a.course) (hfailed : a.course.work ≠ none → a'.failed = a.failed)
    (hd : a.course.work ≠ none → ¬ mixed' → a'.deferred = a.deferred)
    (hx : a.course = {} → ¬ mixed' → ∀ c, x = some c → c.handle = h →
      (c.rolledBack = false → a.failed = false ∧ c.effects = a.deferred) →
      (c.rolledBack = true → a.failed = true ∨ loose) →
      ∃ c', x' = some c' ∧ c'.handle = h ∧
        (c'.rolledBack = false → a'.failed = false ∧ c'.effects = a'.deferred) ∧
        (c'.rolledBack = true → a'.failed = true ∨ loose)) :
    Fits loose mixed' u h x' a' ks := by
  have hn : ¬ mixed' → ¬ mixed := fun hn hx => hn (hm hx)
  cases hf with
  | working hk hc' hx' =>
    refine .working hk (hc.trans hc') fun hxm => ?_
    obtain ⟨c, hxc, hch, hclear, hrolled⟩ := hx' (hn hxm)
    exact hx hc' hxm c hxc hch hclear hrolled
  | committing hk hf' hc' =>
    have hw : a.course.work ≠ none := by rw [hc']; simp
    exact .committing hk (fun hxm => ⟨hfailed hw ▸ (hf' (hn hxm)).1,
      hd hw hxm ▸ (hf' (hn hxm)).2⟩) (hc.trans hc')
  | rollingBack hk hr hc' =>
    exact .rollingBack hk (hfailed (by rw [hc']; simp) ▸ hr) (hc.trans hc')
  | serving hk hf' hc' =>
    have hw : a.course.work ≠ none := by rw [hc']; simp
    exact .serving hk (fun hxm => ⟨hfailed hw ▸ (hf' (hn hxm)).1,
      hd hw hxm ▸ (hf' (hn hxm)).2⟩) (hc.trans hc')
  | waiting hk hc' => exact .waiting hk (hc.trans hc')
  | cleaning hk hc' => exact .cleaning hk (hc.trans hc')
  | finished hk ho =>
    by_cases hw : a.course.work = none
    · obtain ⟨hxm, r, hc'⟩ := ho.strays hw
      exact .finished hk (.strayed (hm hxm) (hc.trans hc'))
    · exact .finished hk (ho.carry hm hc (hfailed hw) (hd hw))

end Carrying

/-! ## Changes elsewhere -/

/-- A change leaves the transactions of a unit alone. -/
structure Apart (u : UnitId) (l l' : Ledger H) : Prop where
  direct : ∀ h, Item.direct u h ∈ l'.items → .direct u h ∈ l.items
  replaced : ∀ h, Mark.replaced u h ∈ l'.marks ↔ .replaced u h ∈ l.marks
  contexts : l'.contexts u = l.contexts u
  account : ∀ h, (l.account h).opener = some u ∨ (l'.account h).opener = some u →
    l'.account h = l.account h
  keepers : ∀ h, (l.account h).opener = some u → keepers h l' = keepers h l

section Elsewhere

variable {u v : UnitId} {l l' l'' : Ledger H} {i : Item H} {s : Multiset (Item H)}

theorem Lives.apart (hl : Lives T u l) (hs : Sound l) (ha : Apart u l l') : Lives T u l' := by
  have hmixed : IsMixed u l'.marks = IsMixed u l.marks := propext (exists_congr ha.replaced)
  refine ⟨fun h hh => hl.undirected h (ha.direct h hh), fun hn c hc => ?_, fun h hh => ?_⟩
  · rw [hmixed] at hn
    rw [ha.contexts] at hc
    rw [ha.keepers c.handle (hs.contexts u c hc)]
    exact hl.holder hn c hc
  · have hsame := ha.account h (.inr hh)
    rw [hsame] at hh ⊢
    rw [ha.keepers h hh, ha.contexts, hmixed]
    exact hl.fits h hh

theorem Apart.trans (h₁ : Apart u l l') (h₂ : Apart u l' l'') : Apart u l l'' where
  direct h hh := h₁.direct h (h₂.direct h hh)
  replaced h := (h₂.replaced h).trans (h₁.replaced h)
  contexts := h₂.contexts.trans h₁.contexts
  account h ho := by
    rcases ho with ho | ho
    · have h1 := h₁.account h (.inl ho)
      exact (h₂.account h (.inl (by rw [h1]; exact ho))).trans h1
    · have h2 := h₂.account h (.inr ho)
      exact h2.trans (h₁.account h (.inr (by rw [← h2]; exact ho)))
  keepers h ho := by
    have h1 := h₁.account h (.inl ho)
    exact (h₂.keepers h (by rw [h1]; exact ho)).trans (h₁.keepers h ho)

/-- A mark about no transaction, or about one of another unit. -/
theorem Apart.note {m : Mark H} (hh : ∀ h, m.handle? = some h → (l.account h).opener ≠ some u)
    (hr : ∀ h, m ≠ .replaced u h) (ho : ∀ h, m ≠ .opened u h) : Apart u l (l.note m) where
  direct _ := id
  replaced h := by
    show _ ∈ m :: l.marks ↔ _
    rw [List.mem_cons]
    exact ⟨fun hm => hm.resolve_left fun he => hr h he.symm, .inr⟩
  contexts := rfl
  account h hopen := by
    by_cases hm : m.handle? = some h
    · rcases hopen with hopen | hopen
      · exact absurd hopen (hh h hm)
      · rw [account_note_self l m hm] at hopen
        cases m with
        | opened v h' =>
          have hv : v = u := Option.some.inj hopen
          exact absurd rfl (hv ▸ ho h')
        | _ => exact absurd hopen (hh h hm)
    · exact account_note_of_ne l m hm
  keepers _ _ := rfl

theorem Apart.upTo (n : Handle) : Apart u l (l.upTo n) :=
  ⟨fun _ => id, fun _ => .rfl, rfl, fun _ _ => rfl, fun _ _ => rfl⟩

theorem Apart.setCancelled (f : UnitId → Bool) : Apart u l { l with cancelled := f } :=
  ⟨fun _ => id, fun _ => .rfl, rfl, fun _ _ => rfl, fun _ _ => rfl⟩

theorem Apart.setContext (x : Option (Context (List (Step H)))) (hv : u ≠ v) :
    Apart u l (l.setContext v x) :=
  ⟨fun _ => id, fun _ => .rfl, Function.update_of_ne hv _ _, fun _ _ => rfl, fun _ _ => rfl⟩

/-- A scope that has nothing to do with the transactions of the unit begins. -/
theorem Apart.add (hh : ∀ h, i.handle? = some h → (l.account h).opener ≠ some u)
    (hd : ∀ h, i ≠ .direct u h) : Apart u l (l.holding (i ::ₘ l.items)) where
  direct h hi := (Multiset.mem_cons.mp hi).resolve_left fun he => hd h he.symm
  replaced _ := .rfl
  contexts := rfl
  account _ _ := rfl
  keepers h ho := by
    have hnot : i.owns h = false := by
      by_contra hi
      exact hh h (handle?_of_owns (Bool.of_not_eq_false hi)) ho
    exact keepers_of_not_owns (l := l.holding (i ::ₘ l.items)) rfl hnot

/-- Such a scope ends. -/
theorem Apart.drop (hi : l.items = i ::ₘ s)
    (hh : ∀ h, i.handle? = some h → (l.account h).opener ≠ some u) :
    Apart u l (l.holding s) where
  direct _ hs := hi ▸ Multiset.mem_cons_of_mem hs
  replaced _ := .rfl
  contexts := rfl
  account _ _ := rfl
  keepers h ho := by
    have hnot : i.owns h = false := by
      by_contra hown
      exact hh h (handle?_of_owns (Bool.of_not_eq_false hown)) ho
    exact (keepers_of_not_owns hi hnot).symm

/-- A rollback in the background of another unit's transaction begins. -/
theorem Apart.addCleanup {c : Cleanup} (hc : (l.account c.handle).opener ≠ some u) :
    Apart u l { l with background := c ::ₘ l.background } where
  direct _ := id
  replaced _ := .rfl
  contexts := rfl
  account _ _ := rfl
  keepers h ho := by
    have hne : c.handle ≠ h := fun he => hc (he ▸ ho)
    exact keepers_of_cleanup_ne (l := { l with background := c ::ₘ l.background }) rfl hne

/-- Such a rollback ends. -/
theorem Apart.dropCleanup {c : Cleanup} {b : Multiset Cleanup} (hb : l.background = c ::ₘ b)
    (hc : (l.account c.handle).opener ≠ some u) : Apart u l { l with background := b } where
  direct _ := id
  replaced _ := .rfl
  contexts := rfl
  account _ _ := rfl
  keepers _ ho := (keepers_of_cleanup_ne hb fun he => hc (he ▸ ho)).symm

end Elsewhere

/-! ## Changes of one transaction -/

/-- A change that touches one transaction of a unit, and contexts of no other one. -/
theorem Lives.at {u : UnitId} {l l' : Ledger H} (hl : Lives T u l) (h₀ : Handle)
    (hi : ∀ h, Item.direct u h ∈ l'.items → .direct u h ∈ l.items)
    (hm : IsMixed u l.marks → IsMixed u l'.marks)
    (ha : ∀ h, h₀ ≠ h → l'.account h = l.account h)
    (hk : ∀ h, h₀ ≠ h → keepers h l' = keepers h l)
    (hx : ¬ IsMixed u l'.marks → ∀ c, h₀ ≠ c.handle →
      (l'.contexts u = some c ↔ l.contexts u = some c))
    (hholder : ¬ IsMixed u l'.marks → ∀ c, l'.contexts u = some c → h₀ = c.handle →
      keepers h₀ l' = {.item (.outer u h₀)})
    (hfits : (l'.account h₀).opener = some u → Fits (¬ T u) (IsMixed u l'.marks) u h₀
      (l'.contexts u) (l'.account h₀) (keepers h₀ l')) : Lives T u l' := by
  refine ⟨fun h hh => hl.undirected h (hi h hh), fun hn c hc => ?_, fun h ho => ?_⟩
  · by_cases hh : h₀ = c.handle
    · exact hh ▸ hholder hn c hc hh
    · rw [hk _ hh]
      exact hl.holder (fun hmix => hn (hm hmix)) c ((hx hn c hh).mp hc)
  · by_cases hh : h₀ = h
    · subst hh
      exact hfits ho
    · rw [ha h hh] at ho ⊢
      rw [hk h hh]
      refine (hl.fits h ho).carry hm rfl (fun _ => rfl) (fun _ _ => rfl) ?_
      intro _ hn c hc hch hclear hrolled
      exact ⟨c, (hx hn c (hch ▸ hh)).mpr hc, hch, hclear, hrolled⟩

/-- The account of a transaction whose keeper is an outermost scope. -/
theorem Lives.fits_of_owns {u : UnitId} {l : Ledger H} (hl : Lives T u l) {i : Item H}
    {s : Multiset (Item H)} {h : Handle} (hi : l.items = i ::ₘ s) (how : i.owns h = true)
    (ho : (l.account h).opener = some u) :
    keepers h (l.holding s) = 0 ∧
      Fits (¬ T u) (IsMixed u l.marks) u h (l.contexts u) (l.account h) {.item i} := by
  have hf := hl.fits h ho
  rw [keepers_of_owns hi how] at hf
  have hr := hf.rest_eq_zero
  rw [hr] at hf
  exact ⟨hr, hf⟩

end BootEngine.Work
