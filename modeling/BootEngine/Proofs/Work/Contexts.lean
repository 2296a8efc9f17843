import BootEngine.Proofs.Work.Outcome

/-!
# What a context holds

On a unit whose scopes nest there is a context exactly while the work of an outermost scope goes on,
and it is the context of the transaction of this scope. Its depth is the number of nested scopes
that are alive; since each of them has been counted before it ends, the depth never has to stop at
zero. The transaction is marked from the first nested scope on that does not end well, and from then
on no effects are held. Whoever asks the unit is told as much. All of this holds as well where
programs end transactions themselves.

Contents:
* `entries`, `exits`: the nested scopes of a transaction that have begun and ended.
* `Holds`, `Holds.act`: what a context holds, and every act keeps it.
* `NestedMove`, `NestedReached`: runs in which scopes nest, and what they reach.
* `ContextHolds`, `context_holds`: what is told of the context of a unit.
-/

namespace BootEngine.Work

open Transaction (Terminal Handle Source Context)

variable {H : Host} {T D : UnitId → Prop}

/-! ## Marks about contexts -/

/-- The unit and the transaction of a mark that tells how the context of a unit changes. -/
def Mark.context? : Mark H → Option (UnitId × Handle)
  | .opened u h => some (u, h)
  | .nestedBegun u h => some (u, h)
  | .nestedEnded u h _ => some (u, h)
  | .workEnded u h .. => some (u, h)
  | .interrupted u h => some (u, h)
  | _ => none

/-- The mark tells that the work of a scope has ended or has been cut off. -/
def Mark.EndsWork (u : UnitId) (h : Handle) : Mark H → Prop
  | .workEnded v k .. => v = u ∧ k = h
  | .interrupted v k => v = u ∧ k = h
  | _ => False

/-- The mark tells that a nested scope has begun on a transaction. -/
def Mark.isEntry (u : UnitId) (h : Handle) : Mark H → Bool
  | .nestedBegun v k => v == u && k == h
  | _ => false

/-- The mark tells that a nested scope has ended on a transaction. -/
def Mark.isExit (u : UnitId) (h : Handle) : Mark H → Bool
  | .nestedEnded v k _ => v == u && k == h
  | _ => false

/-- The number of nested scopes that have begun on a transaction. -/
def entries (u : UnitId) (h : Handle) (marks : List (Mark H)) : Nat :=
  marks.countP fun m => m.isEntry u h

/-- The number of nested scopes that have ended on a transaction. -/
def exits (u : UnitId) (h : Handle) (marks : List (Mark H)) : Nat :=
  marks.countP fun m => m.isExit u h

section Marks

variable {u : UnitId} {h : Handle} {m : Mark H} {marks ms : List (Mark H)}

theorem entries_append : entries u h (ms ++ marks) = entries u h ms + entries u h marks :=
  List.countP_append

theorem exits_append : exits u h (ms ++ marks) = exits u h ms + exits u h marks :=
  List.countP_append

theorem entries_cons :
    entries u h (m :: marks) = entries u h marks + if m.isEntry u h then 1 else 0 :=
  List.countP_cons

theorem exits_cons :
    exits u h (m :: marks) = exits u h marks + if m.isExit u h then 1 else 0 :=
  List.countP_cons

theorem Mark.EndsWork.context? (hm : m.EndsWork u h) : m.context? = some (u, h) := by
  cases m with
  | workEnded v k outcome stopped =>
    obtain ⟨rfl, rfl⟩ := hm
    rfl
  | interrupted v k =>
    obtain ⟨rfl, rfl⟩ := hm
    rfl
  | _ => exact hm.elim

/-- Nested scopes are counted by marks about the context. -/
theorem counts_eq_zero (hms : ∀ m ∈ ms, m.context? ≠ some (u, h)) :
    entries u h ms = 0 ∧ exits u h ms = 0 := by
  constructor
  · refine List.countP_eq_zero.mpr fun m hm hcount => hms m hm ?_
    cases m with
    | nestedBegun v k =>
      obtain ⟨hv, hk⟩ := Bool.and_eq_true_iff.mp hcount
      rw [beq_iff_eq.mp hv, beq_iff_eq.mp hk]
      rfl
    | _ => cases hcount
  · refine List.countP_eq_zero.mpr fun m hm hcount => hms m hm ?_
    cases m with
    | nestedEnded v k outcome =>
      obtain ⟨hv, hk⟩ := Bool.and_eq_true_iff.mp hcount
      rw [beq_iff_eq.mp hv, beq_iff_eq.mp hk]
      rfl
    | _ => cases hcount

/-- Nothing is told of the context of a transaction that has not been opened. -/
theorem Timely.context?_ne (ht : Timely T marks) (ho : (account h marks).opener = none) :
    ∀ m ∈ marks, m.context? ≠ some (u, h) := by
  intro m hm hcontext
  obtain ⟨older, hs⟩ := exists_suffix_of_mem hm
  have hunopened : (account h (m :: older)).opener ≠ some u := by
    intro hopen
    rw [ht.opener hs hopen] at ho
    cases ho
  have hearlier : (account h older).opener ≠ some u := by
    intro hopen
    rw [ht.opener ((List.suffix_cons m older).trans hs) hopen] at ho
    cases ho
  have htimely := ht.at hs
  cases m with
  | opened v k =>
    simp only [Mark.context?, Option.some.injEq, Prod.mk.injEq] at hcontext
    obtain ⟨rfl, rfl⟩ := hcontext
    exact hunopened (congrArg Account.opener (account_cons_self older rfl))
  | nestedBegun v k =>
    simp only [Mark.context?, Option.some.injEq, Prod.mk.injEq] at hcontext
    obtain ⟨rfl, rfl⟩ := hcontext
    exact hearlier htimely.1
  | nestedEnded v k outcome =>
    simp only [Mark.context?, Option.some.injEq, Prod.mk.injEq] at hcontext
    obtain ⟨rfl, rfl⟩ := hcontext
    exact hearlier htimely.1
  | workEnded v k outcome stopped =>
    simp only [Mark.context?, Option.some.injEq, Prod.mk.injEq] at hcontext
    obtain ⟨rfl, rfl⟩ := hcontext
    exact hearlier htimely.1
  | interrupted v k =>
    simp only [Mark.context?, Option.some.injEq, Prod.mk.injEq] at hcontext
    obtain ⟨rfl, rfl⟩ := hcontext
    exact hearlier htimely
  | _ => cases hcontext

end Marks

/-! ## What a run holds for a context -/

/-- The item is an outermost scope that works, or a nested scope, of a unit. -/
def Item.isPart (u : UnitId) (i : Item H) : Bool := i.isOuter u || i.isNested u

/-- The scopes of a unit that work. -/
def parts (u : UnitId) (s : Multiset (Item H)) : Multiset (Item H) := s.filter fun i => i.isPart u

section Parts

variable {u : UnitId} {h : Handle} {i : Item H} {s t : Multiset (Item H)}

theorem parts_cons_of_eq_false (hi : i.isPart u = false) : parts u (i ::ₘ s) = parts u s := by
  rw [parts, Multiset.filter_cons_of_neg (p := fun i => i.isPart u = true) s (ne_true_of_eq_false hi)]
  rfl

theorem parts_of_unit_ne (hi : i.unit ≠ u) : parts u (i ::ₘ s) = parts u s := by
  refine parts_cons_of_eq_false ?_
  cases i <;> simp [Item.isPart, Item.isOuter, Item.isNested] <;> exact hi

theorem seats_of_unit_ne (hi : i.unit ≠ u) : seats u (i ::ₘ s) = seats u s := by
  have hseat : i.isSeat u = false := by cases i <;> first | rfl | exact beq_false_of_ne hi
  rw [seats_cons, hseat]
  rfl

theorem mem_parts_iff (hi : i.isPart u = true) : i ∈ s ↔ i ∈ parts u s := by
  rw [parts, Multiset.mem_filter, and_iff_left hi]

theorem isPart_outer : (Item.outer u h : Item H).isPart u = true := by
  simp [Item.isPart, Item.isOuter]

theorem isPart_nested : (Item.nested u h : Item H).isPart u = true := by
  simp [Item.isPart, Item.isNested]

theorem nesteds_parts : nesteds u (parts u s) = nesteds u s := by
  rw [nesteds, nesteds, parts, Multiset.countP_filter]
  refine Multiset.countP_congr rfl fun i _ => ?_
  rw [Item.isPart, Bool.or_eq_true]
  exact propext ⟨fun hi => hi.1, fun hi => ⟨hi, .inr hi⟩⟩

/-- Where no outermost scope waits or works, none works. -/
theorem not_mem_of_seats_eq_zero (hs : seats u s = 0) (h : Handle) : Item.outer u h ∉ s :=
  fun hin => Multiset.countP_eq_zero.mp hs _ hin (beq_self_eq_true u)

end Parts

/-! ## Contexts -/

/-- What holds of the context of a unit whose scopes nest. -/
structure Holds (u : UnitId) (l : Ledger H) : Prop where
  /-- At most one outermost scope waits or works. -/
  alone : seats u l.items ≤ 1
  /-- The context is that of the outermost scope that works. -/
  works : ∀ h, Item.outer u h ∈ l.items ↔ ∃ c, l.contexts u = some c ∧ c.handle = h
  /-- Nested scopes stand on it. -/
  nests : ∀ h, Item.nested u h ∈ l.items → ∃ c, l.contexts u = some c ∧ c.handle = h
  /-- A scope works from receiving its transaction to the end of its work. -/
  goes : ∀ h, Item.outer u h ∈ l.items ↔
    .opened u h ∈ l.marks ∧ ∀ m ∈ l.marks, ¬ m.EndsWork u h
  /-- The depth is the number of nested scopes that are alive. -/
  alive : ∀ c, l.contexts u = some c → c.depth = nesteds u l.items
  /-- Every nested scope that has ended has been counted before. -/
  counted : ∀ c, l.contexts u = some c →
    c.depth + exits u c.handle l.marks = entries u c.handle l.marks
  /-- The transaction is marked if a nested scope on it has not ended well. -/
  marked : ∀ c, l.contexts u = some c → (c.rolledBack = true ↔
    ∃ outcome, .nestedEnded u c.handle outcome ∈ l.marks ∧ endedWell outcome = false)
  /-- A transaction that is marked holds no effects. -/
  discarded : ∀ c, l.contexts u = some c → c.rolledBack = true → c.effects = []
  /-- Every effect that is held has been put off on the transaction. -/
  deferred : ∀ c, l.contexts u = some c →
    ∀ effect ∈ c.effects, .deferred u c.handle effect ∈ l.marks

section Acts

variable {u v : UnitId} {l l' : Ledger H} {i : Item H} {s : Multiset (Item H)} {h : Handle}

/-- Marks that do not tell of the context of a unit do not matter for it. -/
theorem mem_append_of_quiet {ms marks : List (Mark H)} {m : Mark H}
    (hms : ∀ m ∈ ms, ∀ k, m.context? ≠ some (u, k)) (hm : m.context? = some (u, h)) :
    m ∈ ms ++ marks ↔ m ∈ marks := by
  rw [List.mem_append]
  exact or_iff_right fun hin => hms m hin h hm

/-- Nothing happens to the context of a unit and the scopes on it. -/
theorem Holds.quiet (hl : Holds u l) (ms : List (Mark H)) (hmarks : l'.marks = ms ++ l.marks)
    (hms : ∀ m ∈ ms, ∀ k, m.context? ≠ some (u, k)) (hx : l'.contexts u = l.contexts u)
    (hparts : parts u l'.items = parts u l.items) (hseats : seats u l'.items ≤ 1) :
    Holds u l' := by
  have hmem : ∀ {m h}, m.context? = some (u, h) → (m ∈ l'.marks ↔ m ∈ l.marks) := by
    intro m h hm
    rw [hmarks]
    exact mem_append_of_quiet hms hm
  have houter : ∀ h, Item.outer u h ∈ l'.items ↔ .outer u h ∈ l.items := fun h => by
    rw [mem_parts_iff isPart_outer, hparts, ← mem_parts_iff isPart_outer]
  constructor
  case alone => exact hseats
  case works =>
    intro h
    rw [houter, hx]
    exact hl.works h
  case nests =>
    intro h hin
    rw [mem_parts_iff isPart_nested, hparts, ← mem_parts_iff isPart_nested] at hin
    rw [hx]
    exact hl.nests h hin
  case goes =>
    intro h
    rw [houter, hl.goes, hmem rfl]
    refine and_congr_right fun _ => forall_congr' fun m => ?_
    exact ⟨fun hall hin hends => hall ((hmem hends.context?).mp hin) hends,
      fun hall hin hends => hall ((hmem hends.context?).mpr hin) hends⟩
  case alive =>
    intro c hc
    rw [hx] at hc
    rw [← nesteds_parts, hparts, nesteds_parts]
    exact hl.alive c hc
  case counted =>
    intro c hc
    rw [hx] at hc
    obtain ⟨hentries, hexits⟩ := counts_eq_zero fun m hm => hms m hm c.handle
    rw [hmarks, entries_append, exits_append, hentries, hexits, Nat.zero_add, Nat.zero_add]
    exact hl.counted c hc
  case marked =>
    intro c hc
    rw [hx] at hc
    rw [hl.marked c hc]
    exact exists_congr fun outcome => and_congr_left' (hmem rfl).symm
  case discarded =>
    intro c hc
    rw [hx] at hc
    exact hl.discarded c hc
  case deferred =>
    intro c hc effect hin
    rw [hx] at hc
    rw [hmarks]
    exact List.mem_append_right _ (hl.deferred c hc effect hin)

/-- What happens to another unit does not matter. -/
theorem Holds.elsewhere (hl : Holds u l) (hv : v ≠ u) (ms : List (Mark H))
    (hmarks : l'.marks = ms ++ l.marks)
    (hms : ∀ m ∈ ms, ∀ w k, m.context? = some (w, k) → w = v) (hx : l'.contexts u = l.contexts u)
    (hparts : parts u l'.items = parts u l.items) (hseats : seats u l'.items = seats u l.items) :
    Holds u l' :=
  hl.quiet ms hmarks (fun m hin k hm => hv (hms m hin u k hm).symm) hx hparts (hseats ▸ hl.alone)

/-- While an outermost scope waits nobody works, so there is no context and no nested scope. -/
theorem Holds.waits (hl : Holds u l) {p : Option Handle} (hi : l.items = .acquiring u p ::ₘ s) :
    seats u s = 0 ∧ (∀ k, Item.outer u k ∉ l.items) ∧ l.contexts u = none ∧
      ∀ k, Item.nested u k ∉ l.items := by
  have halone := hl.alone
  rw [hi, seats_cons] at halone
  simp only [Item.isSeat, beq_self_eq_true, if_true] at halone
  have hnone : seats u s = 0 := by omega
  have hidle : ∀ k, Item.outer u k ∉ l.items := by
    intro k hin
    rw [hi, Multiset.mem_cons] at hin
    exact not_mem_of_seats_eq_zero hnone k (hin.resolve_left (by simp))
  refine ⟨hnone, hidle, ?_, fun k hin => ?_⟩
  · refine Option.eq_none_iff_forall_ne_some.mpr fun c hc => ?_
    exact hidle c.handle ((hl.works _).mpr ⟨c, hc, rfl⟩)
  · obtain ⟨c, hc, -⟩ := hl.nests k hin
    exact hidle c.handle ((hl.works _).mpr ⟨c, hc, rfl⟩)

/-- An outermost scope that waits receives a transaction of which nothing has been told. -/
theorem Holds.start (hl : Holds u l) {p : Option Handle} (hi : l.items = .acquiring u p ::ₘ s)
    (hfresh : ∀ m ∈ l.marks, m.context? ≠ some (u, h))
    (hmarks : l'.marks = .opened u h :: l.marks) (hx : l'.contexts u = some (.start h))
    (hitems : l'.items = .outer u h ::ₘ s) : Holds u l' := by
  obtain ⟨hnone, hidle, -, hbare⟩ := hl.waits hi
  have hsome : ∀ c, l'.contexts u = some c → c = .start h := fun c hc =>
    Option.some.inj (hc.symm.trans hx)
  have houter : ∀ k, Item.outer u k ∈ l'.items ↔ k = h := by
    intro k
    rw [hitems, Multiset.mem_cons, or_iff_left (not_mem_of_seats_eq_zero hnone k)]
    exact ⟨fun he => (Item.outer.inj he).2, fun he => congrArg (Item.outer u) he⟩
  have hnested : ∀ k, Item.nested u k ∉ l'.items := by
    intro k hin
    rw [hitems, Multiset.mem_cons] at hin
    exact hbare k (hi ▸ Multiset.mem_cons_of_mem (hin.resolve_left (by simp)))
  have hnew : ∀ m ∈ l'.marks, m.context? = some (u, h) → m = .opened u h := by
    intro m hin hm
    rw [hmarks] at hin
    exact (List.mem_cons.mp hin).resolve_right fun hin => hfresh m hin hm
  constructor
  case alone =>
    rw [hitems, seats_cons, hnone]
    simp [Item.isSeat]
  case works =>
    intro k
    rw [houter, hx]
    constructor
    · rintro rfl
      exact ⟨_, rfl, rfl⟩
    · rintro ⟨c, hc, rfl⟩
      rw [← Option.some.inj hc]
      rfl
  case nests => exact fun k hin => absurd hin (hnested k)
  case goes =>
    intro k
    rw [houter]
    constructor
    · rintro rfl
      refine ⟨hmarks ▸ List.mem_cons_self .., fun m hin hends => ?_⟩
      rw [hnew m hin hends.context?] at hends
      exact hends
    · rw [hmarks]
      rintro ⟨hopened, hnotEnded⟩
      rcases List.mem_cons.mp hopened with he | hin
      · exact (Mark.opened.inj he).2
      · -- An earlier transaction would still be at work.
        have hworks := (hl.goes k).mpr ⟨hin, fun m hm => hnotEnded m (List.mem_cons_of_mem _ hm)⟩
        exact absurd hworks (hidle k)
  case alive =>
    intro c hc
    rw [hsome c hc]
    refine (Multiset.countP_eq_zero.mpr fun i hin hn => ?_).symm
    cases i with
    | nested w k =>
      obtain rfl : w = u := beq_iff_eq.mp hn
      exact hnested k hin
    | _ => cases hn
  case counted =>
    intro c hc
    obtain ⟨hentries, hexits⟩ := counts_eq_zero hfresh
    rw [hsome c hc]
    show 0 + exits u h l'.marks = entries u h l'.marks
    rw [hmarks, entries_cons, exits_cons, hentries, hexits]
    rfl
  case marked =>
    intro c hc
    rw [hsome c hc]
    constructor
    · intro he
      cases he
    · rintro ⟨outcome, hin, -⟩
      cases hnew _ hin rfl
  case discarded =>
    intro c hc
    rw [hsome c hc]
    intro he
    cases he
  case deferred =>
    intro c hc effect hin
    rw [hsome c hc] at hin
    cases hin

/-- A scope that has asked begins to work. -/
theorem Holds.serve (hl : Holds u l) (hs : Sound l) (ht : Timely T l.marks) {p : Option Handle}
    {n : Handle} (hi : l.items = .acquiring v p ::ₘ s)
    (hp : p = some h ∧ n = l.next ∨ p = none ∧ h = l.next ∧ n = l.next + 1) :
    Holds u (((l.openContext v h).upTo n).holding (.outer v h ::ₘ s)) := by
  obtain ⟨ms, hmarks, hold⟩ := l.marks_openContext v h
  have hx := l.contexts_openContext v h
  by_cases hv : v = u
  · subst hv
    obtain ⟨-, -, hcontext, -⟩ := hl.waits hi
    obtain ⟨-, rfl⟩ | ⟨c, hc, -⟩ := hold
    · refine hl.start hi (ht.context?_ne (hs.fresh_of_serve hi hp).1.opener) hmarks ?_ rfl
      exact (congrFun hx v).trans (Function.update_self ..)
    · rw [hcontext] at hc
      cases hc
  · have hpart : (Item.outer v h : Item H).unit ≠ u := hv
    have hwait : (Item.acquiring v p : Item H).unit ≠ u := hv
    refine hl.elsewhere hv (ms ++ [Mark.opened v h]) (by rw [← List.append_cons]; exact hmarks)
      (fun m hin w k hm => ?_) ((congrFun hx u).trans (Function.update_of_ne (Ne.symm hv) _ _))
      ?_ ?_
    · have hopened : m = .opened v h := by
        rcases List.mem_append.mp hin with hin | hin
        · obtain ⟨-, rfl⟩ | ⟨c, -, rfl⟩ := hold
          · cases hin
          · rw [List.mem_singleton.mp hin] at hm
            cases hm
        · exact List.mem_singleton.mp hin
      rw [hopened] at hm
      exact (congrArg Prod.fst (Option.some.inj hm)).symm
    · show parts u (.outer v h ::ₘ s) = _
      rw [parts_of_unit_ne hpart, hi, parts_of_unit_ne hwait]
    · show seats u (.outer v h ::ₘ s) = _
      rw [seats_of_unit_ne hpart, hi, seats_of_unit_ne hwait]

/-- The context of a unit changes, and its scopes stay or a nested one begins or ends. -/
theorem Holds.change (hl : Holds u l) {c c' : Context (List (Step H))} (m : Mark H)
    (hmarks : l'.marks = m :: l.marks) (hm : m.context? = none ∨
      m = .nestedBegun u c.handle ∨ ∃ outcome, m = .nestedEnded u c.handle outcome)
    (hx : l.contexts u = some c) (hx' : l'.contexts u = some c') (hc : c'.handle = c.handle)
    (houter : ∀ h, Item.outer u h ∈ l'.items ↔ .outer u h ∈ l.items)
    (hnested : ∀ h, Item.nested u h ∈ l'.items → Item.nested u h ∈ l.items ∨ h = c.handle)
    (hseats : seats u l'.items = seats u l.items) (halive : c'.depth = nesteds u l'.items)
    (hcounted : c'.depth + exits u c.handle (m :: l.marks) = entries u c.handle (m :: l.marks))
    (hmarked : c'.rolledBack = true ↔
      ∃ outcome, .nestedEnded u c.handle outcome ∈ m :: l.marks ∧ endedWell outcome = false)
    (hdiscarded : c'.rolledBack = true → c'.effects = [])
    (hdeferred : ∀ effect ∈ c'.effects, .deferred u c.handle effect ∈ m :: l.marks) :
    Holds u l' := by
  have hsome : ∀ d, l'.contexts u = some d → d = c' := fun d hd =>
    Option.some.inj (hd.symm.trans hx')
  have hsame : ∀ h, (∃ d, l'.contexts u = some d ∧ d.handle = h) ↔
      ∃ d, l.contexts u = some d ∧ d.handle = h := by
    intro h
    rw [hx', hx]
    simp [hc]
  have hnotOpened : ∀ h, m ≠ .opened u h := by
    rintro h rfl
    rcases hm with hm | hm | ⟨outcome, hm⟩ <;> cases hm
  have hnotEnded : ∀ h, ¬ m.EndsWork u h := by
    intro h hends
    rcases hm with hm | rfl | ⟨outcome, rfl⟩
    · rw [hends.context?] at hm
      cases hm
    · exact hends
    · exact hends
  constructor
  case alone => exact hseats ▸ hl.alone
  case works =>
    intro h
    rw [houter, hsame]
    exact hl.works h
  case nests =>
    intro h hin
    rw [hsame]
    rcases hnested h hin with hin | rfl
    · exact hl.nests h hin
    · exact ⟨c, hx, rfl⟩
  case goes =>
    intro h
    rw [houter, hl.goes, hmarks, List.forall_mem_cons, List.mem_cons]
    rw [or_iff_right (hnotOpened h).symm, and_iff_right (hnotEnded h)]
  case alive =>
    intro d hd
    rw [hsome d hd]
    exact halive
  case counted =>
    intro d hd
    rw [hsome d hd, hc, hmarks]
    exact hcounted
  case marked =>
    intro d hd
    rw [hsome d hd, hc, hmarks]
    exact hmarked
  case discarded =>
    intro d hd
    rw [hsome d hd]
    exact hdiscarded
  case deferred =>
    intro d hd
    rw [hsome d hd, hc, hmarks]
    exact hdeferred

theorem Holds.enterNested (hl : Holds u l) {c : Context (List (Step H))}
    (hx : l.contexts v = some c) :
    Holds u (((l.note (.nestedBegun v c.handle)).setContext v (some c.enter)).holding
      (.nested v c.handle ::ₘ l.items)) := by
  have hseats : seats u (.nested v c.handle ::ₘ l.items) = seats u l.items := by
    rw [seats_cons]
    rfl
  by_cases hv : v = u
  · subst hv
    have hentered : ((l.note (.nestedBegun v c.handle)).setContext v (some c.enter)).contexts v =
        some c.enter := Function.update_self ..
    refine hl.change (.nestedBegun v c.handle) rfl (.inr (.inl rfl)) hx hentered rfl
      (fun h => ?_) (fun h hin => ?_) hseats ?_ ?_ ?_
      (hl.discarded c hx) fun effect hin => List.mem_cons_of_mem _ (hl.deferred c hx effect hin)
    · exact Multiset.mem_cons.trans (or_iff_right fun he => nomatch he)
    · rcases Multiset.mem_cons.mp hin with he | hin
      · exact .inr (Item.nested.inj he).2
      · exact .inl hin
    · show c.depth + 1 = nesteds v (.nested v c.handle ::ₘ l.items)
      rw [nesteds_cons, hl.alive c hx]
      simp [Item.isNested]
    · have hold := hl.counted c hx
      show c.depth + 1 + exits v c.handle (_ :: l.marks) = entries v c.handle (_ :: l.marks)
      rw [exits_cons, entries_cons]
      simp only [Mark.isExit, Mark.isEntry, beq_self_eq_true, Bool.and_self, Bool.false_eq_true,
        if_true, if_false]
      omega
    · refine (hl.marked c hx).trans (exists_congr fun outcome => and_congr_left' ?_)
      exact ⟨List.mem_cons_of_mem _, fun hin => (List.mem_cons.mp hin).resolve_left
        fun he => nomatch he⟩
  · refine hl.elsewhere hv [Mark.nestedBegun v c.handle] rfl (fun m hin w k hm => ?_)
      (Function.update_of_ne (Ne.symm hv) _ _) ?_ hseats
    · rw [List.mem_singleton.mp hin] at hm
      exact (congrArg Prod.fst (Option.some.inj hm)).symm
    · have hpart : (Item.nested v c.handle : Item H).unit ≠ u := hv
      exact parts_of_unit_ne hpart

/-- A nested scope ends. Its context is there, and has counted it. -/
theorem Holds.leaveNested (hl : Holds u l) (outcome : Option (Outcome H))
    (hi : l.items = .nested v h ::ₘ s) : Holds u ((l.leaveNested v h outcome).holding s) := by
  have hmarks := l.marks_leaveNested v h outcome
  have hseats : seats u s = seats u l.items := by
    rw [hi, seats_cons]
    rfl
  by_cases hv : v = u
  · subst hv
    obtain ⟨c, hx, rfl⟩ := hl.nests h (hi ▸ Multiset.mem_cons_self _ s)
    have halive := hl.alive c hx
    rw [hi, nesteds_cons] at halive
    simp only [Item.isNested, beq_self_eq_true, if_true] at halive
    have hx' : (l.leaveNested v c.handle outcome).contexts v =
        some (if endedWell outcome then c else c.markRolledBack).exit := by
      rw [l.contexts_leaveNested, Function.update_self, hx]
      rfl
    have hdepth : (if endedWell outcome then c else c.markRolledBack).exit.depth = c.depth - 1 := by
      split <;> rfl
    refine hl.change (.nestedEnded v c.handle outcome) hmarks (.inr (.inr ⟨outcome, rfl⟩)) hx hx'
      ?_ (fun k => ?_) (fun k hin => ?_) hseats ?_ ?_ ?_ (fun hback => ?_) fun effect hin => ?_
    · split <;> rfl
    · rw [hi, Multiset.mem_cons]
      exact (or_iff_right fun he => nomatch he).symm
    · exact .inl (hi ▸ Multiset.mem_cons_of_mem hin)
    · rw [hdepth]
      show c.depth - 1 = nesteds v s
      omega
    · have hold := hl.counted c hx
      rw [hdepth]
      show c.depth - 1 + exits v c.handle (_ :: l.marks) = entries v c.handle (_ :: l.marks)
      rw [exits_cons, entries_cons]
      simp only [Mark.isExit, Mark.isEntry, beq_self_eq_true, Bool.and_self, Bool.false_eq_true,
        if_true, if_false]
      omega
    · cases hended : endedWell outcome with
      | true =>
        show c.rolledBack = true ↔ _
        rw [hl.marked c hx]
        refine exists_congr fun o => ⟨fun ⟨hin, ho⟩ => ⟨List.mem_cons_of_mem _ hin, ho⟩, ?_⟩
        rintro ⟨hin, ho⟩
        refine ⟨(List.mem_cons.mp hin).resolve_left fun he => ?_, ho⟩
        rw [(Mark.nestedEnded.inj he).2.2, hended] at ho
        cases ho
      | false => exact ⟨fun _ => ⟨outcome, List.mem_cons_self .., hended⟩, fun _ => rfl⟩
    · split at hback
      · next hended =>
        rw [if_pos hended]
        exact hl.discarded c hx hback
      · next hended =>
        rw [if_neg hended]
        rfl
    · split at hin
      · exact List.mem_cons_of_mem _ (hl.deferred c hx effect hin)
      · cases hin
  · refine hl.elsewhere hv [Mark.nestedEnded v h outcome] hmarks (fun m hin w k hm => ?_) ?_ ?_
      hseats
    · rw [List.mem_singleton.mp hin] at hm
      exact (congrArg Prod.fst (Option.some.inj hm)).symm
    · show (l.leaveNested v h outcome).contexts u = _
      rw [l.contexts_leaveNested, Function.update_of_ne (Ne.symm hv)]
    · have hpart : (Item.nested v h : Item H).unit ≠ u := hv
      rw [hi, parts_of_unit_ne hpart]
      rfl

theorem Holds.defer (hl : Holds u l) {c : Context (List (Step H))} (effect : List (Step H))
    (hx : l.contexts v = some c) :
    Holds u ((l.note (.deferred v c.handle effect)).setContext v (some (c.defer effect))) := by
  by_cases hv : v = u
  · subst hv
    have hdepth := Context.depth_defer effect c
    refine hl.change (.deferred v c.handle effect) rfl (.inl rfl) hx (Function.update_self ..)
      (Context.handle_defer effect c) (fun _ => .rfl) (fun _ => .inl) rfl ?_ ?_ ?_
      (fun hback => ?_) fun held hin => ?_
    · rw [hdepth]
      exact hl.alive c hx
    · rw [hdepth]
      exact hl.counted c hx
    · rw [Context.rolledBack_defer, hl.marked c hx]
      refine exists_congr fun outcome => and_congr_left' ?_
      exact ⟨List.mem_cons_of_mem _, fun hin => (List.mem_cons.mp hin).resolve_left
        fun he => nomatch he⟩
    · rw [Context.rolledBack_defer] at hback
      rw [Context.defer_of_rolledBack effect hback]
      exact hl.discarded c hx hback
    · unfold Context.defer at hin
      split at hin
      · exact List.mem_cons_of_mem _ (hl.deferred c hx held hin)
      · rcases List.mem_append.mp hin with hin | hin
        · exact List.mem_cons_of_mem _ (hl.deferred c hx held hin)
        · rw [List.mem_singleton.mp hin]
          exact List.mem_cons_self ..
  · refine hl.quiet [Mark.deferred v c.handle effect] rfl (fun m hin k hm => ?_)
      (Function.update_of_ne (Ne.symm hv) _ _) rfl hl.alone
    rw [List.mem_singleton.mp hin] at hm
    cases hm

/-- The work of an outermost scope is over, when no nested scope is alive. -/
theorem Holds.endWork (hl : Holds u l) (hi : l.items = .outer u h ::ₘ s) (hn : nesteds u s = 0)
    (ms : List (Mark H)) (hmarks : l'.marks = ms ++ l.marks)
    (hms : ∀ m ∈ ms, ∀ k, m.context? = some (u, k) → m.EndsWork u h)
    (hends : ∃ m ∈ ms, m.EndsWork u h) (hx : l'.contexts u = none)
    (hparts : parts u l'.items = parts u s) (hseats : seats u l'.items = seats u s) :
    Holds u l' := by
  have halone := hl.alone
  rw [hi, seats_cons] at halone
  simp only [Item.isSeat, beq_self_eq_true, if_true] at halone
  have hnone : seats u s = 0 := by omega
  have houter : ∀ k, Item.outer u k ∉ l'.items := by
    intro k hin
    rw [mem_parts_iff isPart_outer, hparts, ← mem_parts_iff isPart_outer] at hin
    exact not_mem_of_seats_eq_zero hnone k hin
  have hnothing : ∀ c, l'.contexts u ≠ some c := fun c hc => by
    rw [hx] at hc
    cases hc
  constructor
  case alone =>
    rw [hseats, hnone]
    exact Nat.zero_le 1
  case works =>
    refine fun k => iff_of_false (houter k) ?_
    rintro ⟨c, hc, -⟩
    exact hnothing c hc
  case nests =>
    intro k hin
    rw [mem_parts_iff isPart_nested, hparts, ← mem_parts_iff isPart_nested] at hin
    exact absurd hin (not_mem_of_nesteds_eq_zero hn k)
  case goes =>
    refine fun k => iff_of_false (houter k) ?_
    rw [hmarks]
    rintro ⟨hopened, hnotEnded⟩
    obtain ⟨m, hin, hm⟩ := hends
    by_cases hk : k = h
    · subst hk
      exact hnotEnded m (List.mem_append_left _ hin) hm
    · have hworks : Item.outer u k ∈ l.items := by
        refine (hl.goes k).mpr ⟨?_, fun m hin => hnotEnded m (List.mem_append_right _ hin)⟩
        exact (List.mem_append.mp hopened).resolve_left fun hin => hms _ hin k rfl
      rw [hi, Multiset.mem_cons] at hworks
      rcases hworks with he | hin
      · exact hk (Item.outer.inj he).2
      · exact not_mem_of_seats_eq_zero hnone k hin
  case alive => exact fun c hc => absurd hc (hnothing c)
  case counted => exact fun c hc => absurd hc (hnothing c)
  case marked => exact fun c hc => absurd hc (hnothing c)
  case discarded => exact fun c hc => absurd hc (hnothing c)
  case deferred => exact fun c hc => absurd hc (hnothing c)

theorem isPart_ofWork (u v : UnitId) (h : Handle) (c : Context (List (Step H))) (cancelled : Bool)
    (outcome : Outcome H) : (Item.ofWork v h c cancelled outcome).isPart u = false := by
  obtain ⟨_, _, he⟩ | ⟨_, he⟩ := Item.ofWork_cases v h c cancelled outcome <;> rw [he] <;> rfl

/-- An item that is no part of a unit's work is followed by others that are none. -/
theorem Holds.settle (hl : Holds u l) (ms : List (Mark H)) (hmarks : l'.marks = ms ++ l.marks)
    (hms : ∀ m ∈ ms, m.context? = none) (hx : l'.contexts = l.contexts)
    (hi : l.items = i ::ₘ s) (hpart : i.isPart u = false) (hparts : parts u l'.items = parts u s)
    (hseats : seats u l'.items = seats u s) : Holds u l' := by
  have halone := hl.alone
  rw [hi, seats_cons] at halone
  refine hl.quiet ms hmarks (fun m hin k hm => ?_) (congrFun hx u) ?_ (by omega)
  · rw [hms m hin] at hm
    cases hm
  · rw [hi, parts_cons_of_eq_false hpart, hparts]

theorem Holds.close (hl : Holds u l) {c : Context (List (Step H))} (outcome : Outcome H)
    (hi : l.items = .outer v h ::ₘ s) (hn : v = u → nesteds v s = 0) (t : Terminal) :
    Holds u (((l.endWork v h outcome).note (.ending t h)).holding
      (Item.ofWork v h c (l.cancelled v) outcome ::ₘ s)) := by
  have hparts : parts u (Item.ofWork v h c (l.cancelled v) outcome ::ₘ s) = parts u s :=
    parts_cons_of_eq_false (isPart_ofWork ..)
  have hseats : seats u (Item.ofWork v h c (l.cancelled v) outcome ::ₘ s) = seats u s := by
    rw [seats_cons, isSeat_ofWork]
    rfl
  by_cases hv : v = u
  · subst hv
    refine hl.endWork hi (hn rfl) [Mark.ending t h, .workEnded v h outcome (l.cancelled v)] rfl
      (fun m hin k hm => ?_) ⟨.workEnded v h outcome (l.cancelled v), by simp, rfl, rfl⟩
      (Function.update_self ..) hparts hseats
    rcases List.mem_pair.mp hin with rfl | rfl
    · cases hm
    · exact ⟨rfl, rfl⟩
  · have hunit : (Item.outer v h : Item H).unit ≠ u := hv
    refine hl.elsewhere hv [Mark.ending t h, .workEnded v h outcome (l.cancelled v)] rfl
      (fun m hin w k hm => ?_) (Function.update_of_ne (Ne.symm hv) _ _) ?_ ?_
    · rcases List.mem_pair.mp hin with rfl | rfl
      · cases hm
      · exact (congrArg Prod.fst (Option.some.inj hm)).symm
    · show parts u (_ ::ₘ s) = _
      rw [hparts, hi, parts_of_unit_ne hunit]
    · show seats u (_ ::ₘ s) = _
      rw [hseats, hi, seats_of_unit_ne hunit]

theorem Holds.interrupt (hl : Holds u l) (hi : l.items = .outer v h ::ₘ s)
    (hn : v = u → nesteds v s = 0) : Holds u ((l.interrupt v h).holding s) := by
  obtain ⟨ms, hcut, hlost⟩ := l.marks_interrupt v h
  have hmarks : (l.interrupt v h).marks = (ms ++ [.interrupted v h]) ++ l.marks := by
    rw [hcut, List.append_assoc]
    rfl
  have hms : ∀ m ∈ ms, m.context? = none := by
    obtain rfl | ⟨c, -, -, rfl⟩ := hlost <;> simp [Mark.context?]
  have hcontexts := l.contexts_interrupt v h
  have hclosing : ∀ m ∈ ms ++ [.interrupted v h], ∀ w k, m.context? = some (w, k) →
      w = v ∧ m.EndsWork v h := by
    intro m hin w k hm
    rcases List.mem_append.mp hin with hin | hin
    · rw [hms m hin] at hm
      cases hm
    · rw [List.mem_singleton.mp hin] at hm ⊢
      exact ⟨(congrArg Prod.fst (Option.some.inj hm)).symm, rfl, rfl⟩
  by_cases hv : v = u
  · subst hv
    exact hl.endWork hi (hn rfl) (ms ++ [Mark.interrupted v h]) hmarks
      (fun m hin k hm => (hclosing m hin v k hm).2) ⟨.interrupted v h, by simp, rfl, rfl⟩
      ((congrFun hcontexts v).trans (Function.update_self ..)) rfl rfl
  · have hunit : (Item.outer v h : Item H).unit ≠ u := hv
    refine hl.elsewhere hv (ms ++ [Mark.interrupted v h]) hmarks
      (fun m hin w k hm => (hclosing m hin w k hm).1)
      ((congrFun hcontexts u).trans (Function.update_of_ne (Ne.symm hv) _ _)) ?_ ?_
    · rw [hi, parts_of_unit_ne hunit]
      rfl
    · rw [hi, seats_of_unit_ne hunit]
      rfl

/-- Every act keeps what holds of the context of a unit whose scopes nest. -/
theorem Holds.act (hl : Holds u l) (hs : Sound l) (ht : Timely (fun _ => False) l.marks) (hu : T u)
    (hact : Act T D l l') : Holds u l' := by
  cases hact with
  | advance hn => exact hl.quiet [] rfl (by simp) rfl rfl hl.alone
  | cancel v => exact hl.quiet [.cancelled v] rfl (by simp [Mark.context?]) rfl rfl hl.alone
  | @refuse v hc => exact hl.quiet [.refused v] rfl (by simp [Mark.context?]) rfl rfl hl.alone
  | @request v p n hc hx hp hT =>
    refine hl.quiet [.requested v] rfl (by simp [Mark.context?]) rfl
      (parts_cons_of_eq_false rfl) ?_
    show seats u (.acquiring v p ::ₘ l.items) ≤ 1
    by_cases hv : v = u
    · subst hv
      have hnone : seats v l.items = 0 := hT hu
      rw [seats_cons, hnone]
      simp [Item.isSeat]
    · have hunit : (Item.acquiring v p : Item H).unit ≠ u := hv
      rw [seats_of_unit_ne hunit]
      exact hl.alone
  | @unserved v p s e hi he =>
    exact hl.settle [.unserved v e] rfl (by simp [Mark.context?]) rfl hi rfl rfl rfl
  | @withdraw v p s hi =>
    exact hl.settle [.withdrawn v] rfl (by simp [Mark.context?]) rfl hi rfl rfl rfl
  | serve hi hc hp => exact hl.serve hs ht hi hp
  | enterNested hx => exact hl.enterNested hx
  | leaveNested outcome hi => exact hl.leaveNested outcome hi
  | defer effect hx => exact hl.defer effect hx
  | close outcome hi hx hT => exact hl.close outcome hi (fun hv => hT (hv ▸ hu)) _
  | @stray v h s hi hx =>
    by_cases hv : v = u
    · subst hv
      obtain ⟨c, hc, -⟩ := (hl.works h).mp (hi ▸ Multiset.mem_cons_self _ s)
      rw [hx] at hc
      cases hc
    · have hunit : (Item.outer v h : Item H).unit ≠ u := hv
      refine hl.elsewhere hv [_, .strayed v h] rfl (by simp [Mark.context?]) rfl ?_ ?_
      · rw [hi, parts_of_unit_ne hunit]
        rfl
      · rw [hi, seats_of_unit_ne hunit]
        rfl
  | interrupt hi hT => exact hl.interrupt hi fun hv => hT (hv ▸ hu)
  | @committed v h effects value s hi =>
    exact hl.settle [.ended .commit h none] rfl (by simp [Mark.context?]) rfl hi rfl
      (parts_cons_of_eq_false rfl) (by simp [Ledger.holding, Item.isSeat])
  | @commitFailed v h effects value s reason hi =>
    exact hl.settle [_, .ended .commit h (some reason)] rfl (by simp [Mark.context?]) rfl hi rfl rfl
      rfl
  | @rolledBack v h outcome s failure hi =>
    exact hl.settle [_, .ended .rollback h failure] rfl (by simp [Mark.context?]) rfl hi rfl rfl rfl
  | @dropCall i h s hi hc =>
    have hpart : i.isPart u = false := by cases i <;> first | rfl | cases hc
    exact hl.settle [.callDropped h] rfl (by simp [Mark.context?]) rfl hi hpart rfl rfl
  | @startEffect v h index effect rest value s hi =>
    exact hl.settle [.effectStarted v h index effect] rfl (by simp [Mark.context?]) rfl hi rfl
      (parts_cons_of_eq_false rfl) (by simp [Ledger.holding, Item.isSeat])
  | @finishEffects v h index value s hi =>
    exact hl.settle [.returned v h (.ok value)] rfl (by simp [Mark.context?]) rfl hi rfl rfl rfl
  | @dropEffects v h index rest value s hi =>
    exact hl.settle [] rfl (by simp) rfl hi rfl rfl rfl
  | @direct v c t hx hD =>
    refine hl.quiet [.ending t c.handle, .direct v c.handle] rfl (by simp [Mark.context?]) rfl
      (parts_cons_of_eq_false rfl) ?_
    show seats u (.direct v c.handle ::ₘ l.items) ≤ 1
    rw [seats_cons]
    exact hl.alone
  | @directEnded v h s t failure hi =>
    exact hl.settle [.ended t h failure] rfl (by simp [Mark.context?]) rfl hi rfl rfl rfl
  | @startCleanup h b due failure hb =>
    exact hl.quiet [.ending .rollback h] rfl (by simp [Mark.context?]) rfl rfl hl.alone
  | @endCleanup h b due failure hb =>
    exact hl.quiet [.ended .rollback h failure] rfl (by simp [Mark.context?]) rfl rfl hl.alone

end Acts

/-! ## Runs in which scopes nest -/

/-- One change of a run in which the scopes of the units in `T` nest. Programs may end transactions
    themselves. -/
inductive NestedMove (T : UnitId → Prop) : Machine H → Machine H → Prop
  | step {m : Machine H} (hn : ∀ u, T u → m.Nests u) : NestedMove T m m.step
  | move {m m' : Machine H} (hm : Move T m m') : NestedMove T m m'

/-- Such changes, one after another. -/
abbrev NestedRun (T : UnitId → Prop) : Machine H → Machine H → Prop :=
  Relation.ReflTransGen (NestedMove T)

/-- Such a run from the start of a program in a quiet world gets somewhere. -/
inductive NestedReached (T : UnitId → Prop) (m : Machine H) : Prop
  | intro (w : World H) (u : UnitId) (value : Value) (steps : List (Step H)) (hw : w.IsQuiet)
      (hr : NestedRun T ⟨w, [], .exec u value steps⟩ m)

section Runs

variable {m m' : Machine H} {u : UnitId} {h : Handle}

/-- In every run some change is made, whatever order is asked of its units. -/
theorem Move.free (hm : Move T m m') : Move (fun _ => False) m m' := by
  cases hm with
  | step ho => exact .step fun _ => False.elim
  | poll => exact .poll
  | drop => exact .drop
  | next u value steps => exact .next u value steps
  | restart u value steps => exact .restart u value steps
  | background => exact .background
  | elapse now => exact .elapse now
  | share source hs => exact .share source hs
  | cancel u => exact .cancel u

theorem NestedMove.free (hm : NestedMove T m m') : Move (fun _ => False) m m' := by
  cases hm with
  | step hn => exact .step fun _ => False.elim
  | move hm => exact hm.free

theorem NestedReached.free (hr : NestedReached T m) : Reached (fun _ => False) m := by
  obtain ⟨w, u, value, steps, hw, hrun⟩ := hr
  exact ⟨w, u, value, steps, hw, Relation.ReflTransGen.mono (fun _ _ hm => hm.free) _ _ hrun⟩

theorem Reached.nested (hr : Reached T m) : NestedReached T m := by
  obtain ⟨w, u, value, steps, hw, hrun⟩ := hr
  exact ⟨w, u, value, steps, hw, Relation.ReflTransGen.mono (fun _ _ hm => .move hm) _ _ hrun⟩

theorem NestedReached.run (hr : NestedReached T m) (hrun : NestedRun T m m') :
    NestedReached T m' := by
  obtain ⟨w, u, value, steps, hw, hbefore⟩ := hr
  exact ⟨w, u, value, steps, hw, hbefore.trans hrun⟩

/-- What is kept in runs in which the scopes of a unit nest. -/
structure Machine.Nested (u : UnitId) (m : Machine H) : Prop where
  holds : Holds u m.ledger
  covered : m.loose u = 0

theorem Machine.Nested.isTidy (hm : m.Nested u) : m.IsTidy u where
  covered := hm.covered
  alone := hm.holds.alone
  working := by
    constructor
    · intro hx
      obtain ⟨c, hc⟩ := Option.ne_none_iff_exists'.mp hx
      have hin := (hm.holds.works c.handle).mpr ⟨c, hc, rfl⟩
      exact Nat.ne_of_gt (Multiset.countP_pos.mpr ⟨_, hin, beq_self_eq_true u⟩)
    · intro ho
      obtain ⟨h, s, hs⟩ := exists_outer_of_ne_zero ho
      have hin : Item.outer u h ∈ m.items := hs.symm ▸ Multiset.mem_cons_self _ s
      obtain ⟨c, hc, -⟩ := (hm.holds.works h).mp hin
      exact Option.ne_none_iff_exists'.mpr ⟨c, hc⟩

/-- Every change of such a run does a few acts, and leaves no more nested scopes uncovered. -/
theorem NestedMove.acts (hmove : NestedMove T m m') (ht : ∀ u, T u → m.IsTidy u) :
    Acts T (fun _ => False) m.ledger m'.ledger ∧ ∀ u, T u → m'.loose u ≤ m.loose u := by
  cases hmove with
  | step hn =>
    exact ⟨m.step_acts ht hn fun _ => False.elim,
      fun u hu => Machine.loose_step_of_nests (ht u hu) (hn u hu)⟩
  | move hm => exact hm.acts ht fun _ => False.elim

theorem Holds.acts {l l' : Ledger H} (hl : Holds u l) (hs : Sound l)
    (ht : Timely (fun _ => False) l'.marks) (hu : T u) (hacts : Acts T D l l') :
    Holds u l' ∧ Sound l' := by
  induction hacts with
  | refl => exact ⟨hl, hs⟩
  | tail _ hact ih =>
    obtain ⟨ms, hmarks, -⟩ := hact.marks
    have htimely := ht.of_suffix (hmarks ▸ List.suffix_append ms _)
    obtain ⟨hholds, hsound⟩ := ih htimely
    exact ⟨hholds.act hsound htimely hu hact, hsound.act hact⟩

theorem NestedReached.nested (hr : NestedReached T m) : ∀ u, T u → m.Nested u := by
  obtain ⟨w, v, value, steps, hw, hrun⟩ := hr
  induction hrun with
  | refl =>
    intro u hu
    have hnone : ∀ c, ((⟨w, [], .exec v value steps⟩ : Machine H).ledger.contexts u) ≠ some c :=
      fun c hc => nomatch (hw.contexts u).symm.trans hc
    have hmarks : (⟨w, [], .exec v value steps⟩ : Machine H).ledger.marks = [] := hw.marks
    have hitems : ∀ i, i ∉ (⟨w, [], .exec v value steps⟩ : Machine H).ledger.items :=
      fun i => Multiset.notMem_zero i
    refine ⟨⟨Nat.zero_le 1, fun h => iff_of_false (hitems _) fun ⟨c, hc, _⟩ => hnone c hc,
      fun h hin => absurd hin (hitems _), fun h => iff_of_false (hitems _) fun ⟨hin, _⟩ => ?_,
      fun c hc => absurd hc (hnone c), fun c hc => absurd hc (hnone c),
      fun c hc => absurd hc (hnone c), fun c hc => absurd hc (hnone c),
      fun c hc => absurd hc (hnone c)⟩, rfl⟩
    rw [hmarks] at hin
    cases hin
  | @tail m m' hbefore hmove ih =>
    intro u hu
    have hreached : NestedReached T m := ⟨w, v, value, steps, hw, hbefore⟩
    have hafter := hreached.run (.single hmove)
    obtain ⟨hacts, hloose⟩ := hmove.acts fun u hu => (ih u hu).isTidy
    have hholds := (ih u hu).holds.acts hreached.free.keeps.invariant.sound hafter.free.timely hu hacts
    refine ⟨hholds.1, Nat.le_zero.mp ?_⟩
    rw [← (ih u hu).covered]
    exact hloose u hu

theorem Acts.suffix {l l' : Ledger H} (hacts : Acts T D l l') : l.marks <:+ l'.marks := by
  induction hacts with
  | refl => exact List.suffix_refl _
  | tail _ hact ih =>
    obtain ⟨ms, hmarks, -⟩ := hact.marks
    rw [hmarks]
    exact ih.trans (List.suffix_append ..)

/-- The marks of a run stay. -/
theorem NestedReached.suffix (hr : NestedReached T m) (hrun : NestedRun T m m') :
    m.world.marks <:+ m'.world.marks := by
  induction hrun with
  | refl => exact List.suffix_refl _
  | tail hbefore hmove ih =>
    have hnested := (hr.run hbefore).nested
    exact ih.trans (hmove.acts fun u hu => (hnested u hu).isTidy).1.suffix

/-! ## The context of a unit -/

/-- What is told of the context of a unit at a moment of a run. -/
structure ContextHolds (T : UnitId → Prop) (u : UnitId) (m : Machine H) : Prop where
  /-- There is a context exactly while an outermost scope works, and it is that of its
      transaction. -/
  present : ∀ h, (∃ c, m.world.context? u = some c ∧ c.handle = h) ↔ Item.outer u h ∈ m.items
  /-- A scope works from receiving its transaction until its work has ended or is cut off. -/
  works : ∀ h, Item.outer u h ∈ m.items ↔
    .opened u h ∈ m.world.marks ∧ ∀ mark ∈ m.world.marks, ¬ mark.EndsWork u h
  /-- The depth is the number of nested scopes that are alive. -/
  depth : ∀ c, m.world.context? u = some c → c.depth = nesteds u m.items
  /-- Where a nested scope is alive, there is a context of its transaction, which has not come to
      depth zero yet. -/
  unclamped : ∀ h, Item.nested u h ∈ m.items →
    ∃ c, m.world.context? u = some c ∧ c.handle = h ∧ 0 < c.depth
  /-- No end of a nested scope has been lost to depth zero. -/
  counted : ∀ c, m.world.context? u = some c →
    c.depth + exits u c.handle m.world.marks = entries u c.handle m.world.marks
  /-- The transaction is marked if and only if some nested scope on it has ended otherwise than
      well. -/
  marked : ∀ c, m.world.context? u = some c → (c.rolledBack = true ↔
    ∃ outcome, .nestedEnded u c.handle outcome ∈ m.world.marks ∧ endedWell outcome = false)
  /-- It stays so, whatever the run does. -/
  stays : ∀ c m' c', m.world.context? u = some c → NestedRun T m m' →
    m'.world.context? u = some c' → c'.handle = c.handle → c.rolledBack = true →
    c'.rolledBack = true
  /-- A transaction that is marked holds no effects. -/
  discarded : ∀ c, m.world.context? u = some c → c.rolledBack = true → c.effects = []
  /-- A scope that has just received its transaction has a context of depth zero, not marked and
      without effects. -/
  starts : ∀ h older, m.world.marks = .opened u h :: older →
    m.world.context? u = some (.start h)
  /-- Whoever asks the unit is told so: whether an outermost scope works, how many nested scopes are
      alive, and whether one on its transaction has not ended well. -/
  told : ∃ active back, probe m.world u .state =
      .state active (if active then some (nesteds u m.items) else none) back ∧
    (active = true ↔ ∃ h, Item.outer u h ∈ m.items) ∧
    (back = true ↔ ∃ h outcome, Item.outer u h ∈ m.items ∧
      .nestedEnded u h outcome ∈ m.world.marks ∧ endedWell outcome = false)

theorem NestedReached.exists_state (hr : NestedReached T m) (hu : T u) :
    ∃ active back, probe m.world u .state =
        .state active (if active then some (nesteds u m.items) else none) back ∧
      (active = true ↔ ∃ h, Item.outer u h ∈ m.items) ∧
      (back = true ↔ ∃ h outcome, Item.outer u h ∈ m.items ∧
        .nestedEnded u h outcome ∈ m.world.marks ∧ endedWell outcome = false) := by
  have hholds := (hr.nested u hu).holds
  cases hx : m.world.context? u with
  | none =>
    have hidle : ∀ h, Item.outer u h ∉ m.items := by
      intro h hin
      obtain ⟨c, hc, -⟩ := (hholds.works h).mp hin
      exact nomatch hx.symm.trans hc
    refine ⟨false, false, by simp [probe, hx], ?_, ?_⟩
    · exact ⟨nofun, fun ⟨h, hin⟩ => absurd hin (hidle h)⟩
    · exact ⟨nofun, fun ⟨h, _, hin, _⟩ => absurd hin (hidle h)⟩
  | some c =>
    have hworks : Item.outer u c.handle ∈ m.items := (hholds.works _).mpr ⟨c, hx, rfl⟩
    have hdepth : c.depth = nesteds u m.items := hholds.alive c hx
    refine ⟨true, c.rolledBack, by simp [probe, hx, hdepth], ⟨fun _ => ⟨_, hworks⟩, fun _ => rfl⟩, ?_⟩
    rw [hholds.marked c hx]
    constructor
    · rintro ⟨outcome, hin, hended⟩
      exact ⟨_, outcome, hworks, hin, hended⟩
    · rintro ⟨h, outcome, houter, hin, hended⟩
      obtain ⟨c', hc', rfl⟩ := (hholds.works h).mp houter
      obtain rfl : c' = c := Option.some.inj (hc'.symm.trans hx)
      exact ⟨outcome, hin, hended⟩

/-- In every run in which the scopes of a unit nest, its context is there exactly while an outermost
    scope works, counts the nested scopes that are alive, and is marked from the first nested scope
    on that has not ended well; and what is told of these scopes has been done. -/
theorem context_holds (hr : NestedReached T m) (hu : T u) :
    ContextHolds T u m ∧ TellsTrue (fun _ => False) m := by
  have hholds := (hr.nested u hu).holds
  refine ⟨?_, hr.free.tellsTrue⟩
  constructor
  case present => exact fun h => (hholds.works h).symm
  case works => exact hholds.goes
  case depth => exact hholds.alive
  case unclamped =>
    intro h hin
    obtain ⟨c, hc, hhandle⟩ := hholds.nests h hin
    refine ⟨c, hc, hhandle, ?_⟩
    rw [hholds.alive c hc]
    exact Multiset.countP_pos.mpr ⟨_, hin, beq_self_eq_true u⟩
  case counted => exact hholds.counted
  case marked => exact hholds.marked
  case stays =>
    intro c m' c' hc hrun hc' hhandle hback
    obtain ⟨outcome, hin, hended⟩ := (hholds.marked c hc).mp hback
    refine (((hr.run hrun).nested u hu).holds.marked c' hc').mpr ⟨outcome, ?_, hended⟩
    rw [hhandle]
    exact (hr.suffix hrun).subset hin
  case discarded => exact hholds.discarded
  case told => exact hr.exists_state hu
  case starts =>
    intro h older hmarks
    have htimely := hr.free.timely
    rw [hmarks] at htimely
    have hfresh : ∀ mark ∈ older, mark.context? ≠ some (u, h) := htimely.2.context?_ne htimely.1
    have honly : ∀ mark ∈ m.world.marks, mark.context? = some (u, h) → mark = .opened u h := by
      intro mark hin hcontext
      rw [hmarks] at hin
      exact (List.mem_cons.mp hin).resolve_right fun hold => hfresh mark hold hcontext
    have hworks : Item.outer u h ∈ m.items := by
      have hopened : .opened u h ∈ m.world.marks := by
        rw [hmarks]
        exact List.mem_cons_self ..
      refine (hholds.goes h).mpr ⟨hopened, fun mark hin hends => ?_⟩
      · rw [honly mark hin hends.context?] at hends
        exact hends
    obtain ⟨c, hc, rfl⟩ := (hholds.works h).mp hworks
    -- Nothing has been written down on the transaction yet.
    have hdepth : c.depth = 0 := by
      have hcounted := hholds.counted c hc
      have hentries : entries u c.handle m.world.marks = 0 := by
        rw [hmarks]
        exact (List.countP_cons_of_neg (by simp [Mark.isEntry])).trans (counts_eq_zero hfresh).1
      change c.depth + _ = entries u c.handle m.world.marks at hcounted
      omega
    have hback : c.rolledBack = false := by
      by_contra hback
      obtain ⟨outcome, hin, -⟩ := (hholds.marked c hc).mp (Bool.eq_true_of_not_eq_false hback)
      exact nomatch honly _ hin rfl
    have heffects : c.effects = [] := by
      refine List.eq_nil_iff_forall_not_mem.mpr fun effect hin => ?_
      have hdeferred : .deferred u c.handle effect ∈ m.world.marks := hholds.deferred c hc effect hin
      rw [hmarks] at hdeferred
      have hold := (List.mem_cons.mp hdeferred).resolve_left fun he => nomatch he
      obtain ⟨before, hs⟩ := exists_suffix_of_mem hold
      have hopener := htimely.2.opener ((List.suffix_cons _ _).trans hs) (htimely.2.at hs).1
      rw [htimely.1] at hopener
      cases hopener
    refine hc.trans (congrArg some ?_)
    obtain ⟨depth, effects, rolledBack, handle⟩ := c
    obtain rfl : depth = 0 := hdepth
    obtain rfl : effects = [] := heffects
    obtain rfl : rolledBack = false := hback
    rfl

end Runs

/-- A run in which a nested scope has failed and another one is suspended; an effect had been put
    off before. -/
def secondNested : Machine scriptHost :=
  Machine.settleWithin 40
    ⟨World.fresh (.scripted ⟨"scripted", ⟨0, [], 0⟩, ⟨0, [], 0⟩, ⟨0, [], 0⟩⟩) none (), [],
      .exec 0 .null [.scope .here .lenient [.defer true [], .scope .here .lenient [.fail "refused"],
        .scope .here .lenient [.yield]]]⟩

theorem nestedReached_secondNested : NestedReached (· ∈ [0]) secondNested :=
  (Reached.settleWithin 40 ⟨_, 0, .null, _, World.fresh_isQuiet _ _ _, .refl⟩ (by decide)).nested

/-- One nested scope is alive, the transaction is marked, and the effect is gone. -/
theorem context_holds_secondNested :
    NestedReached (· ∈ [0]) secondNested ∧ 0 ∈ [0] ∧
      secondNested.world.context? 0 = some ⟨1, [], true, 1⟩ ∧
      ContextHolds (· ∈ [0]) 0 secondNested ∧ TellsTrue (fun _ => False) secondNested :=
  ⟨nestedReached_secondNested, by decide, rfl, context_holds nestedReached_secondNested (by decide)⟩

end BootEngine.Work
