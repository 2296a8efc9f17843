import BootEngine.Proofs.Work.Deeds
import BootEngine.Proofs.Work.Release

/-!
# Runs on a pool

A run uses its pool like everybody else, and everybody may use the pool beside it: no permit gets
lost, none comes back twice, and no more transactions are open than there are permits. A run that
has the pool for itself and uses its units in order leaves nothing behind: when its scopes are over
and the rollbacks in the background have run, each transaction has been committed or rolled back,
once, and all permits are free.

Contents:
* `PoolMove`, `PoolRun`, `PoolReached`: runs on a pool, alone or beside others.
* `OnPool`, `Booked`, `Deed.onPool`: what a run does to its pool, and what the marks tell of it.
* `OpensNew`, `bookings_account`: the marks of a transaction begin with its opening.
* `PoolHolds`, `pool_holds`: what is said of every run on a pool.
* `Machine.staysOrderly`, `PoolRun.settleWithin`: steps that are a run on a pool.
-/

namespace BootEngine.Work

open Transaction (Terminal Handle Source Pool Event Direct DirectCall)

variable {H : Host} {T D : UnitId → Prop} {others : Prop}

/-! ## Runs -/

/-- One change of a run on a pool. The units in `T` are used in order; with `others`, somebody else
    may use the pool in between. -/
inductive PoolMove (T : UnitId → Prop) (others : Prop) : Machine H → Machine H → Prop
  | step {m : Machine H} (ho : ∀ u, T u → m.InOrder u) : PoolMove T others m m.step
  /-- A suspended run is dropped. -/
  | drop {w : World H} {p : Paused H} :
      PoolMove T others ⟨w, [], .pause p⟩ ⟨p.abandon w, [], .unwind⟩
  /-- The rollbacks in the background run as far as they can. -/
  | background {w : World H} {layers : List (Layer H)} {focus : Focus H} :
      PoolMove T others ⟨w, layers, focus⟩ ⟨w.runBackground, layers, focus⟩
  /-- Any other change of a run; it leaves the pool alone. -/
  | aside {m m' : Machine H} (hmove : Move T m m') (hsource : m'.world.source = m.world.source) :
      PoolMove T others m m'
  /-- Somebody else uses the pool. -/
  | call {w : World H} {layers : List (Layer H)} {focus : Focus H} {p p' : Pool} (ho : others)
      (hp : w.source = .pool p) (huse : Pool.Use p p') :
      PoolMove T others ⟨w, layers, focus⟩ ⟨{ w with source := .pool p' }, layers, focus⟩

/-- Changes of a run on a pool, one after another. -/
abbrev PoolRun (T : UnitId → Prop) (others : Prop) : Machine H → Machine H → Prop :=
  Relation.ReflTransGen (PoolMove T others)

/-- A run from the start of a program in a quiet world, on a new pool of some size, gets
    somewhere. -/
inductive PoolReached (T : UnitId → Prop) (others : Prop) (name : String) (size : Nat)
    (m : Machine H) : Prop
  | intro (w : World H) (u : UnitId) (value : Value) (steps : List (Step H)) (hw : w.IsQuiet)
      (hb : w.background = []) (hs : w.source = .pool (.ofSize name size))
      (hr : PoolRun T others ⟨w, [], .exec u value steps⟩ m)

section Runs

variable {m m' : Machine H}

theorem PoolMove.move (hmove : PoolMove T others m m') : Move T m m' := by
  cases hmove with
  | step ho => exact .step ho
  | drop => exact .drop
  | background => exact .background
  | aside hmove _ => exact hmove
  | call _ hp huse =>
    refine .share _ ?_
    rw [hp]
    exact huse.nextId_le

theorem PoolReached.reached {name : String} {size : Nat} (hr : PoolReached T others name size m) :
    Reached T m := by
  obtain ⟨w, u, value, steps, hw, -, -, hrun⟩ := hr
  exact ⟨w, u, value, steps, hw, Relation.ReflTransGen.mono (fun _ _ => PoolMove.move) _ _ hrun⟩

end Runs

/-! ## Runs as deeds -/

section Changes

variable {m m' : Machine H}

/-- A change that leaves the source alone. -/
theorem Move.anyDeeds_of_source_eq (hmove : Move T m m')
    (hsource : m'.world.source = m.world.source) : AnyDeeds m.scene m'.scene := by
  obtain hdeeds | ⟨source, rfl⟩ := hmove.anyDeeds
  · exact hdeeds
  · exact Deeds.silent hsource rfl

/-- A change of a run on a pool is a few deeds, or somebody else has used the pool. -/
theorem PoolMove.cases (hmove : PoolMove T others m m') : AnyDeeds m.scene m'.scene ∨
    others ∧ ∃ p p', m.world.source = .pool p ∧ Pool.Use p p' ∧ m'.world.source = .pool p' ∧
      m'.scene.waits = m.scene.waits := by
  cases hmove with
  | step ho => exact .inl m.step_anyDeeds
  | drop => exact .inl (drop_anyDeeds _ _)
  | background => exact .inl (background_anyDeeds _ _ _)
  | aside hmove hsource => exact .inl (hmove.anyDeeds_of_source_eq hsource)
  | call ho hp huse => exact .inr ⟨ho, _, _, hp, huse, rfl, rfl⟩

end Changes

/-! ## Deeds on a pool -/

/-- What an event books: the begin or the end of a transaction. -/
def bookingOf (e : Event) : Bool × Handle :=
  match e with
  | .begin h => (true, h)
  | .commit h => (false, h)
  | .rollback h => (false, h)

theorem begin_of_booking {e : Event} {h : Handle} (he : bookingOf e = (true, h)) :
    e = .begin h := by
  cases e with
  | begin id => rw [(Prod.mk.inj he).2]
  | commit id => cases (Prod.mk.inj he).1
  | rollback id => cases (Prod.mk.inj he).1

theorem end_of_booking {e : Event} {h : Handle} (he : bookingOf e = (false, h)) :
    e = .commit h ∨ e = .rollback h := by
  cases e with
  | begin id => cases (Prod.mk.inj he).1
  | commit id => exact .inl (by rw [(Prod.mk.inj he).2])
  | rollback id => exact .inr (by rw [(Prod.mk.inj he).2])

/-- What a mark books. -/
def Mark.booking? : Mark H → Option (Bool × Handle)
  | .opened _ h => some (true, h)
  | .ending _ h => some (false, h)
  | _ => none

/-- The scene is on a pool; who waits stands in line there. -/
structure OnPool (p : Pool) (sc : Scene H) : Prop where
  source : sc.world.source = .pool p
  tickets : ∀ a ∈ sc.waits, ∃ number, a = .ticket number

/-- Nobody but a run itself has used its pool: the events of the pool are those that the marks tell
    of, and all who wait are the scopes of the run. -/
structure Booked (p : Pool) (sc : Scene H) : Prop where
  events : p.events.map bookingOf = (sc.world.marks.filterMap Mark.booking?).reverse
  waits : sc.waits = p.line.map Acquiring.ticket

section Deeds

variable {p q : Pool} {sc sc' : Scene H}

theorem booking?_of_isBooked {m : Mark H} (hm : m.isBooked = false) : m.booking? = none := by
  cases m with
  | opened u h => cases hm
  | ending t h => cases hm
  | _ => rfl

/-- Marks that book nothing. -/
theorem Booked.aside (hb : Booked p sc) (ms : List (Mark H))
    (hmarks : sc'.world.marks = ms ++ sc.world.marks) (hms : ∀ m ∈ ms, m.isBooked = false)
    (hevents : q.events = p.events) (hwaits : sc'.waits = q.line.map Acquiring.ticket) :
    Booked q sc' := by
  have hnone : ms.filterMap Mark.booking? = [] :=
    List.filterMap_eq_nil_iff.mpr fun m hm => booking?_of_isBooked (hms m hm)
  refine ⟨?_, hwaits⟩
  rw [hevents, hmarks, List.filterMap_append, hnone]
  exact hb.events

/-- A mark goes with an event. -/
theorem Booked.record (hb : Booked p sc) {e : Event} {m : Mark H}
    (hmarks : sc'.world.marks = m :: sc.world.marks) (hm : m.booking? = some (bookingOf e))
    (hevents : q.events = p.events ++ [e]) (hwaits : sc'.waits = q.line.map Acquiring.ticket) :
    Booked q sc' := by
  refine ⟨?_, hwaits⟩
  rw [hevents, hmarks, List.map_append, List.filterMap_cons_some hm, List.reverse_cons, hb.events]
  rfl

/-- Who waits stands in line. -/
theorem Booked.mem_line (hb : Booked p sc) {number : Nat} (hin : .ticket number ∈ sc.waits) :
    number ∈ p.line := by
  rw [hb.waits] at hin
  obtain ⟨other, hother, he⟩ := Multiset.mem_map.mp hin
  exact Acquiring.ticket.inj he ▸ hother

/-- A deed uses the pool; without others the marks go on telling of it. -/
theorem Deed.onPool {P : Mark H → Prop} (hdeed : Deed P sc sc') (hp : OnPool p sc) :
    ∃ q, OnPool q sc' ∧ Pool.Uses p q ∧ (Booked p sc → Booked q sc') := by
  obtain ⟨hsource, htickets⟩ := hp
  cases hdeed with
  | aside ms hs hmarks hms =>
    refine ⟨p, ⟨hs.trans hsource, htickets⟩, .refl, fun hb => ?_⟩
    exact hb.aside ms hmarks (fun m hm => (hms m hm).1) rfl hb.waits
  | arm hs hmarks =>
    rw [hsource] at hs
    refine ⟨p.armCommitFailure, ⟨hs, htickets⟩, .single .armCommitFailure, fun hb => ?_⟩
    exact hb.aside [] hmarks (by simp) rfl hb.waits
  | letGo h hs hmarks =>
    rw [hsource] at hs
    refine ⟨p.letGo h, ⟨hs, htickets⟩, .single (.letGo h), fun hb => ?_⟩
    refine hb.aside [] hmarks (by simp) (Pool.stays_letGo p h).events ?_
    rw [Pool.line_letGo]
    exact hb.waits
  | @opened w w' s source h u hbegin hs hmarks hP =>
    rw [hsource] at hbegin
    obtain ⟨q, rfl, hq⟩ := Source.begin_opened hbegin
    obtain ⟨rfl, hopens, hline⟩ := Pool.opens_begin hq
    have hbegun : Pool.Use p q := .of_begin hq
    refine ⟨q.retain p.nextId, ⟨hs, htickets⟩,
      (Relation.ReflTransGen.single hbegun).tail (.retain (hopens.held)), fun hb => ?_⟩
    have hasked : Booked p ⟨w.mark (.requested u), s⟩ :=
      hb.aside [.requested u] rfl (by simp [Mark.isBooked]) rfl hb.waits
    refine hasked.record (e := .begin p.nextId) hmarks rfl hopens.events ?_
    rw [show (q.retain p.nextId).line = q.line from rfl, hline]
    exact hb.waits
  | @queued w w' s source number u hbegin hs hmarks hP =>
    rw [hsource] at hbegin
    obtain ⟨q, rfl, hq⟩ := Source.begin_queued hbegin
    obtain ⟨hstays, hline⟩ := Pool.queues_begin hq
    have hbegun : Pool.Use p q := .of_begin hq
    refine ⟨q, ⟨hs, fun a ha => ?_⟩, .single hbegun, fun hb => ?_⟩
    · rcases Multiset.mem_cons.mp ha with rfl | ha
      · exact ⟨number, rfl⟩
      · exact htickets a ha
    · refine hb.aside [.requested u] hmarks (by simp [Mark.isBooked]) hstays.events ?_
      rw [hline, Multiset.map_cons]
      exact congrArg (_ ::ₘ ·) hb.waits
  | promised u due hbegin hs hmarks hP =>
    rw [hsource] at hbegin
    exact absurd hbegin Source.begin_ne_answering
  | @claimed w w' s number u hgranted hs hmarks hP =>
    rw [hsource] at hgranted hs hmarks
    obtain ⟨hopens, hline⟩ := Pool.opens_claim hgranted
    have hclaimed : Pool.Use p (p.claim number).2 := .claim hgranted
    refine ⟨(p.claim number).2.retain p.nextId, ⟨hs, fun a ha => ?_⟩,
      (Relation.ReflTransGen.single hclaimed).tail (.retain (hopens.held)), fun hb => ?_⟩
    · exact htickets a (Multiset.mem_cons_of_mem ha)
    · refine hb.record (e := .begin p.nextId) hmarks rfl hopens.events ?_
      have hwaits := hb.waits
      rw [hline, Multiset.map_cons] at hwaits
      exact (Multiset.cons_inj_right _).mp hwaits
  | answered u hs hmarks hP =>
    obtain ⟨number, he⟩ := htickets _ (Multiset.mem_cons_self _ _)
    cases he
  | @gaveUp w w' s wait m hs hmarks hm =>
    obtain ⟨number, rfl⟩ := htickets wait (Multiset.mem_cons_self _ _)
    have hwithdrawn : w'.source = .pool (p.withdraw number) := by
      rw [hs]
      show w.source.withdraw number = _
      rw [hsource]
      rfl
    refine ⟨p.withdraw number, ⟨hwithdrawn, fun a ha => ?_⟩, .single (.withdraw number),
      fun hb => ?_⟩
    · exact htickets a (Multiset.mem_cons_of_mem ha)
    · refine hb.aside [m] hmarks (by simpa using hm.1)
        (Pool.stays_withdraw p number).events ?_
      have hin : number ∈ p.line := hb.mem_line (Multiset.mem_cons_self _ _)
      have hwaits := hb.waits
      rw [Pool.line_withdraw hin, Multiset.map_cons] at hwaits
      exact (Multiset.cons_inj_right _).mp hwaits
  | ended t h hs hmarks hP =>
    rw [hsource] at hs
    cases t with
    | commit =>
      obtain ⟨e, hends, hline⟩ := Pool.ends_commit p h
      refine ⟨(p.commit h).2, ⟨hs, htickets⟩, .single (.commit h), fun hb => ?_⟩
      refine hb.record (e := e) hmarks ?_ hends.events (hline ▸ hb.waits)
      rcases hends.event with rfl | rfl <;> rfl
    | rollback =>
      obtain ⟨hends, hline⟩ := Pool.ends_rollback p h
      refine ⟨p.rollback h, ⟨hs, htickets⟩, .single (.rollback h), fun hb => ?_⟩
      exact hb.record (e := .rollback h) hmarks rfl hends.events (hline ▸ hb.waits)

theorem AnyDeeds.onPool (hdeeds : AnyDeeds sc sc') (hp : OnPool p sc) :
    ∃ q, OnPool q sc' ∧ Pool.Uses p q ∧ (Booked p sc → Booked q sc') := by
  induction hdeeds with
  | refl => exact ⟨p, hp, .refl, id⟩
  | tail _ hdeed ih =>
    obtain ⟨q, hq, huses, hbooked⟩ := ih
    obtain ⟨r, hr, hmore, hlast⟩ := hdeed.onPool hq
    exact ⟨r, hr, huses.trans hmore, hlast ∘ hbooked⟩

end Deeds

section Uses

variable {m m' : Machine H} {p : Pool} {name : String} {size : Nat}

/-- A run uses its pool; as long as it is alone, the marks tell of it. -/
theorem PoolRun.onPool (hrun : PoolRun T others m m') (hp : OnPool p m.scene) :
    ∃ q, OnPool q m'.scene ∧ Pool.Uses p q ∧
      (¬ others → Booked p m.scene → Booked q m'.scene) := by
  induction hrun with
  | refl => exact ⟨p, hp, .refl, fun _ => id⟩
  | tail _ hmove ih =>
    obtain ⟨q, hq, huses, hbooked⟩ := ih
    rcases hmove.cases with hdeeds | ⟨ho, q', r, hsource, huse, hafter, hwaits⟩
    · obtain ⟨r, hr, hmore, hlast⟩ := hdeeds.onPool hq
      exact ⟨r, hr, huses.trans hmore, fun halone hb => hlast (hbooked halone hb)⟩
    · obtain rfl : q' = q := Source.pool.inj (hsource.symm.trans hq.source)
      exact ⟨r, ⟨hafter, hwaits.symm ▸ hq.tickets⟩, huses.tail huse,
        fun halone => absurd ho halone⟩

/-- Uses of others are changes of a run beside them. -/
theorem PoolRun.call {q : Pool} (ho : others) (hp : m.world.source = .pool p)
    (huses : Pool.Uses p q) :
    PoolRun T others m { m with world := { m.world with source := .pool q } } := by
  obtain ⟨w, layers, focus⟩ := m
  induction huses with
  | refl =>
    rw [← hp]
  | tail _ huse ih => exact ih.tail (.call ho rfl huse)

theorem PoolReached.onPool (hr : PoolReached T others name size m) :
    ∃ p, OnPool p m.scene ∧ p.Kept size ∧ (¬ others → Booked p m.scene) := by
  obtain ⟨w, u, value, steps, hw, -, hs, hrun⟩ := hr
  have hstart : OnPool (.ofSize name size) (⟨w, [], .exec u value steps⟩ : Machine H).scene :=
    ⟨hs, fun a ha => nomatch ha⟩
  have hbooked : Booked (.ofSize name size) (⟨w, [], .exec u value steps⟩ : Machine H).scene := by
    refine ⟨?_, rfl⟩
    show [] = (w.marks.filterMap Mark.booking?).reverse
    rw [hw.marks]
    rfl
  obtain ⟨p, hp, huses, hall⟩ := PoolRun.onPool hrun hstart
  exact ⟨p, hp, huses.kept (Pool.kept_ofSize name size), fun halone => hall halone hbooked⟩

end Uses

/-! ## The marks of a transaction -/

/-- Nothing has been written down about a transaction before it is opened. -/
def OpensNew (marks : List (Mark H)) : Prop :=
  ∀ u h older, .opened u h :: older <:+ marks → account h older = {}

section Marks

variable {marks : List (Mark H)} {l l' : Ledger H} {h : Handle}

theorem OpensNew.cons (hn : OpensNew marks) {m : Mark H} (hm : ∀ u h, m ≠ .opened u h) :
    OpensNew (m :: marks) := by
  intro u h older hs
  rcases List.suffix_cons_iff.mp hs with heq | hs
  · exact absurd (List.cons.inj heq).1.symm (hm u h)
  · exact hn u h older hs

theorem OpensNew.opened (hn : OpensNew marks) {u : UnitId} (ha : account h marks = {}) :
    OpensNew (.opened u h :: marks) := by
  intro v k older hs
  rcases List.suffix_cons_iff.mp hs with heq | hs
  · obtain ⟨he, rfl⟩ := List.cons.inj heq
    rw [(Mark.opened.inj he).2]
    exact ha
  · exact hn v k older hs

theorem OpensNew.act (hl : Sound l) (hact : Act T D l l') (hn : OpensNew l.marks) :
    OpensNew l'.marks := by
  cases hact with
  | advance => exact hn
  | dropEffects => exact hn
  | @serve u p h n s hi hc hp =>
    have hopened := hn.opened (u := u) (hl.fresh_of_serve hi hp).1.account
    obtain ⟨ms, hmarks, ⟨-, rfl⟩ | ⟨c, -, rfl⟩⟩ := l.marks_openContext u h
    · exact hmarks ▸ hopened
    · exact hmarks ▸ hopened.cons (by simp)
  | @leaveNested u h s outcome hi =>
    show OpensNew (l.leaveNested u h outcome).marks
    rw [l.marks_leaveNested]
    exact hn.cons (by simp)
  | @interrupt u h s hi hT =>
    have hcut : OpensNew (.interrupted u h :: l.marks) := hn.cons (by simp)
    obtain ⟨ms, hmarks, rfl | ⟨c, -, -, rfl⟩⟩ := l.marks_interrupt u h
    · exact hmarks ▸ hcut
    · exact hmarks ▸ hcut.cons (by simp)
  | close => exact .cons (.cons hn (by simp)) (by simp)
  | stray => exact .cons (.cons hn (by simp)) (by simp)
  | commitFailed => exact .cons (.cons hn (by simp)) (by simp)
  | rolledBack => exact .cons (.cons hn (by simp)) (by simp)
  | direct => exact .cons (.cons hn (by simp)) (by simp)
  | _ => exact .cons hn (by simp)

theorem OpensNew.acts (hl : Invariant T l) (hacts : Acts T T l l') (hn : OpensNew l.marks) :
    OpensNew l'.marks := by
  have hboth : Invariant T l' ∧ OpensNew l'.marks := by
    induction hacts with
    | refl => exact ⟨hl, hn⟩
    | tail _ hact ih => exact ⟨ih.1.act hact, OpensNew.act ih.1.sound hact ih.2⟩
  exact hboth.2

theorem Reached.opensNew {m : Machine H} (hr : Reached T m) : OpensNew m.world.marks := by
  obtain ⟨w, u, value, steps, hw, hrun⟩ := hr
  induction hrun with
  | refl =>
    intro v h older hs
    rw [show (⟨w, [], .exec u value steps⟩ : Machine H).world.marks = [] from hw.marks] at hs
    cases List.suffix_nil.mp hs
  | tail hbefore hmove ih =>
    have hkeeps := Reached.keeps ⟨w, u, value, steps, hw, hbefore⟩
    obtain ⟨hacts, -⟩ := hkeeps.acts_of_move hmove
    exact OpensNew.acts hkeeps.invariant hacts ih

/-- What the marks of a transaction book, newest first: its ends, after its opening. -/
theorem bookings_account (hn : OpensNew marks) (h : Handle) :
    (marks.filterMap Mark.booking?).filter (fun b => b.2 == h) =
      List.replicate (account h marks).course.calls.length (false, h) ++
        if (account h marks).opener.isSome then [(true, h)] else [] := by
  induction marks with
  | nil => rfl
  | cons m older ih =>
    have hrest := ih fun u k older' hs => hn u k older' (hs.trans (List.suffix_cons m older))
    by_cases hm : m.handle? = some h
    · rw [account_cons_self _ hm]
      cases m with
      | opened u k =>
        obtain rfl : k = h := Option.some.inj hm
        rw [hn u k older (List.suffix_refl _)] at hrest ⊢
        show List.filter _ ((true, k) :: _) = _
        rw [List.filter_cons, if_pos (beq_self_eq_true k), hrest]
        rfl
      | ending t k =>
        obtain rfl : k = h := Option.some.inj hm
        show List.filter _ ((false, k) :: _) = List.replicate (_ ++ [t]).length _ ++ _
        rw [List.filter_cons, if_pos (beq_self_eq_true k), hrest, List.length_append,
          List.length_singleton, List.replicate_succ]
        rfl
      | _ => exact hrest
    · rw [account_cons_of_ne _ hm, ← hrest]
      have hother : ∀ k, k ≠ h → ∀ b : Bool, (((b, k) :: older.filterMap Mark.booking?).filter
          fun b => b.2 == h) = (older.filterMap Mark.booking?).filter fun b => b.2 == h :=
        fun k hk b => by rw [List.filter_cons, if_neg (by simpa using hk)]
      cases m with
      | opened u k => exact hother k (fun he => hm (congrArg some he)) true
      | ending t k => exact hother k (fun he => hm (congrArg some he)) false
      | _ => rfl

end Marks

/-! ## What a run leaves behind -/

/-- A transaction that nobody keeps has been ended by one call, unless it was given up. -/
theorem Over.exists_call {loose mixed : Prop} {a : Account H} (ho : Over loose mixed a)
    (hm : ¬ mixed) (hl : a.course.lost = false) : ∃ t, a.course.calls = [t] := by
  cases ho with
  | commitFailed hf hc => exact ⟨_, by rw [hc]⟩
  | served hf hc => exact ⟨_, by rw [hc]⟩
  | cut hf hc => exact ⟨_, by rw [hc]⟩
  | rolledBack hr hc => exact ⟨_, by rw [hc]⟩
  | dropped hf hc => exact ⟨_, by rw [hc]⟩
  | cleaned hc => exact ⟨_, by rw [hc]⟩
  | lost hc =>
    rw [hc] at hl
    cases hl
  | strayed hx hc => exact absurd hx hm

section Rest

variable {m : Machine H} {p : Pool} {h : Handle}

/-- The events of a transaction are those that the marks tell of. -/
theorem Booked.eventsOf (hb : Booked p m.scene) (hn : OpensNew m.world.marks) (h : Handle) :
    (p.eventsOf h).map bookingOf =
      (if (account h m.world.marks).opener.isSome then [(true, h)] else []) ++
        List.replicate (account h m.world.marks).course.calls.length (false, h) := by
  have hfilter : (p.eventsOf h).map bookingOf =
      (p.events.map bookingOf).filter fun b => b.2 == h := by
    rw [List.filter_map]
    refine congrArg _ (List.filter_congr fun e _ => ?_)
    cases e <;> rfl
  have hevents : p.events.map bookingOf = (m.world.marks.filterMap Mark.booking?).reverse :=
    hb.events
  rw [hfilter, hevents, List.filter_reverse, bookings_account hn h, List.reverse_append,
    List.reverse_replicate]
  split <;> rfl

/-- When the scope of a transaction is over, it has been committed or rolled back, once. -/
theorem Booked.balanced (hb : Booked p m.scene) (hr : Reached T m) (hT : ∀ u, T u)
    (hbegun : h ∈ p.begun) (hover : IsOver h m) (hkept : .lost h ∉ m.world.marks) :
    p.eventsOf h = [.begin h, .commit h] ∨ p.eventsOf h = [.begin h, .rollback h] := by
  have hevents := hb.eventsOf hr.opensNew h
  have hin : (true, h) ∈ (p.eventsOf h).map bookingOf :=
    List.mem_map.mpr ⟨.begin h, Pool.begin_mem_eventsOf hbegun, rfl⟩
  obtain ⟨u, hopener⟩ : ∃ u, (account h m.world.marks).opener = some u := by
    refine Option.ne_none_iff_exists'.mp fun hnone => ?_
    rw [hevents, hnone] at hin
    simp at hin
  have hfits := (hr.lives (hT u)).fits h hopener
  rw [hover.keepers] at hfits
  have hlost : (account h m.world.marks).course.lost = false :=
    Bool.eq_false_iff.mpr fun hl => hkept (lost_iff.mp hl)
  obtain ⟨t, hcalls⟩ : ∃ t, (account h m.world.marks).course.calls = [t] :=
    hfits.over_of_keepers.exists_call (hr.orderly (hT u)).unmixed hlost
  rw [hopener, hcalls] at hevents
  obtain ⟨first, rest, heq, hfirst, hrest⟩ := List.map_eq_cons_iff.mp hevents
  obtain ⟨last, rfl, hlast⟩ := List.map_eq_singleton_iff.mp hrest
  obtain rfl := begin_of_booking hfirst
  rw [heq]
  rcases end_of_booking hlast with rfl | rfl
  · exact .inl rfl
  · exact .inr rfl

end Rest

/-! ## Who waits is a scope -/

mutual

theorem Paused.card_waits_le (p : Paused H) : p.waits.card ≤ p.items.card := by
  match p with
  | .sleeping _ => exact Nat.le_refl 0
  | .yielded => exact Nat.le_refl 0
  | .acquiring .. => exact Nat.le_refl 1
  | .closing .. => exact Nat.zero_le _
  | .under frame inner =>
    rw [Paused.items, Multiset.card_add]
    exact (inner.card_waits_le).trans (Nat.le_add_left _ _)
  | .branches _ items => exact Paused.card_waitsAll_le items

theorem Paused.card_waitsAll_le (items : List (Branch H (Paused H))) :
    (Paused.waitsAll items).card ≤ (Paused.itemsAll items).card := by
  match items with
  | [] => exact Nat.le_refl 0
  | .paused p :: rest =>
    rw [Paused.waitsAll, Paused.itemsAll, Multiset.card_add, Multiset.card_add]
    exact Nat.add_le_add p.card_waits_le (Paused.card_waitsAll_le rest)
  | .idle _ :: rest => exact Paused.card_waitsAll_le rest
  | .finished :: rest => exact Paused.card_waitsAll_le rest

end

theorem Layer.card_waitsAll_le (layers : List (Layer H)) :
    (Layer.waitsAll layers).card ≤ (Layer.itemsAll layers).card := by
  induction layers with
  | nil => exact Nat.le_refl 0
  | cons l rest ih =>
    rw [Layer.itemsAll, Multiset.card_add]
    cases l with
    | frame f => exact ih.trans (Nat.le_add_left _ _)
    | joining v done todo =>
      rw [Layer.waitsAll, Layer.items, Multiset.card_add, Multiset.card_add, Multiset.card_add]
      exact Nat.add_le_add
        (Nat.add_le_add (Paused.card_waitsAll_le done) (Paused.card_waitsAll_le todo)) ih

/-- Where no scope is alive, nobody waits. -/
theorem Machine.waits_eq_zero {m : Machine H} (hi : m.items = 0) : m.waits = 0 := by
  have hfocus : m.focus.waits.card ≤ m.focus.items.card := by
    cases m.focus with
    | enter p => exact p.card_waits_le
    | pause p => exact p.card_waits_le
    | _ => exact Nat.le_refl 0
  have hle : m.waits.card ≤ m.items.card := by
    rw [Machine.waits, Machine.items, Multiset.card_add, Multiset.card_add]
    exact Nat.add_le_add hfocus (Layer.card_waitsAll_le m.layers)
  rw [hi] at hle
  exact Multiset.card_eq_zero.mp (Nat.le_zero.mp hle)

theorem isOver_of_items_eq_zero {m : Machine H} (hi : m.items = 0)
    (hb : m.world.background = []) (h : Handle) : IsOver h m where
  scope i hin := absurd (hi ▸ hin) (Multiset.notMem_zero i)
  background _ hin := nomatch hb ▸ hin

/-- When all is over, all permits are free. -/
theorem Booked.free_eq {m : Machine H} {p : Pool} {size : Nat} (hb : Booked p m.scene)
    (hp : p.Kept size) (hr : Reached T m) (hT : ∀ u, T u) (hi : m.items = 0)
    (hback : m.world.background = []) (hkept : ∀ h, .lost h ∉ m.world.marks) : p.free = size := by
  have hline : p.line = 0 := by
    have hwaits := hb.waits
    rw [show m.scene.waits = 0 from m.waits_eq_zero hi] at hwaits
    exact Multiset.map_eq_zero.mp hwaits.symm
  have hgranted : p.granted = [] := (List.append_eq_nil_iff.mp (Multiset.coe_eq_zero _ |>.mp hline)).2
  have hout : p.out = 0 := by
    refine List.countP_eq_zero.mpr fun l hl hpermit => ?_
    have hopen : p.isOpen l = true := (hp.truthful l hl).symm.trans hpermit
    have hbegun : l.id ∈ p.begun := hp.numbered.begun_of_mem hl
    have hlast := (Bool.and_eq_true_iff.mp hopen).2
    rcases hb.balanced hr hT hbegun (isOver_of_items_eq_zero hi hback _) (hkept _) with he | he
    · rw [he] at hlast
      simp at hlast
    · rw [he] at hlast
      simp at hlast
  have hpermits : p.free + p.out + p.granted.length = size := hp.permits
  rw [hout, hgranted] at hpermits
  exact hpermits

/-! ## Every run on a pool -/

/-- What is said of a run on a pool. -/
structure PoolHolds (T : UnitId → Prop) (others : Prop) (size : Nat) (m : Machine H) (p : Pool) :
    Prop where
  /-- Each permit is free, or out with a transaction, or has been handed to somebody who has not
      come for it yet. -/
  permits : p.free + p.out + p.granted.length = size
  /-- No more transactions are open than there are permits. -/
  open_le : p.openCount ≤ size
  /-- A permit that has come back does not come out again, so that it comes back once at most. -/
  once : ∀ m' p', PoolRun T others m m' → m'.world.source = .pool p' → ∀ h ∈ p.begun,
    ¬ p.IsOut h → ¬ p'.IsOut h
  /-- A direct call of somebody else is one of the changes that all this is said of. -/
  direct : others → ∀ (d : Direct) (c : DirectCall), d.source = m.world.source →
    PoolRun T others m { m with world := { m.world with source := (d.call c).2.source } }
  /-- Transactions begin in the order of their numbers, from one on. -/
  begins : p.begun = List.range' 1 p.begun.length
  /-- In a run that is alone and uses all units in order, a transaction whose scope is over has been
      committed or rolled back, once, unless it was given up. -/
  balanced : (∀ u, T u) → ¬ others → ∀ h ∈ p.begun, IsOver h m → .lost h ∉ m.world.marks →
    p.eventsOf h = [.begin h, .commit h] ∨ p.eventsOf h = [.begin h, .rollback h]
  /-- When all its scopes are over and the background has run, all permits are free. -/
  freed : (∀ u, T u) → ¬ others → m.items = 0 → m.world.background = [] →
    (∀ h, .lost h ∉ m.world.marks) → p.free = size
  /-- Nothing is given up as long as something can run in the background. -/
  kept : m.world.hasRuntime = true → ∀ h, .lost h ∉ m.world.marks

/-- In every run on a pool, alone or beside others, no permit is lost; and alone it leaves nothing
    behind. -/
theorem pool_holds {name : String} {size : Nat} {m : Machine H}
    (hr : PoolReached T others name size m) :
    ∃ p, m.world.source = .pool p ∧ PoolHolds T others size m p := by
  obtain ⟨p, hp, hkept, hbooked⟩ := hr.onPool
  refine ⟨p, hp.source, ?_⟩
  constructor
  case permits => exact hkept.permits
  case open_le => exact hkept.openCount_le
  case once =>
    intro m' p' hrun hsource h hh hback
    obtain ⟨q, hq, huses, -⟩ := PoolRun.onPool hrun hp
    obtain rfl : q = p' := Source.pool.inj (hq.source.symm.trans hsource)
    exact huses.isOut (hkept.numbered.lt_of_begun hh) hback
  case direct =>
    intro ho d c hd
    obtain ⟨q, hq, huses⟩ := d.call_uses (hd.trans hp.source) c
    rw [hq]
    exact PoolRun.call ho hp.source huses
  case begins => exact hkept.begun_eq
  case balanced =>
    intro hT halone h hh hover hlost
    exact (hbooked halone).balanced hr.reached hT hh hover hlost
  case freed =>
    intro hT halone hi hback hlost
    exact (hbooked halone).free_eq hkept hr.reached hT hi hback hlost
  case kept => exact hr.reached.keeps.history.kept

namespace Machine

/-- The next step of a run uses all units in order. -/
def isOrderly (m : Machine H) : Bool :=
  (m.opensOn?.all fun u => m.isInOrder u) && m.finishesOn?.isNone

theorem inOrder_of_isOrderly {m : Machine H} (h : m.isOrderly = true) (u : UnitId) :
    m.InOrder u := by
  obtain ⟨hopens, hfinishes⟩ := Bool.and_eq_true_iff.mp h
  refine ⟨fun ho => ?_, fun hf => ?_⟩
  · rw [ho] at hopens
    exact (inOrder_of_isInOrder hopens).opens ho
  · rw [hf] at hfinishes
    cases hfinishes

/-- The steps of a run until it is at rest use all units in order. -/
def staysOrderly : Nat → Machine H → Bool
  | 0, _ => true
  | fuel + 1, m => m.isAtRest || m.isOrderly && staysOrderly fuel m.step

end Machine

/-- Steps that use all units in order are a run on a pool. -/
theorem PoolRun.settleWithin (fuel : Nat) {m : Machine H} (h : m.staysOrderly fuel = true) :
    PoolRun T others m (m.settleWithin fuel) := by
  induction fuel generalizing m with
  | zero => exact .refl
  | succ fuel ih =>
    rw [Machine.staysOrderly, Bool.or_eq_true] at h
    rw [Machine.settleWithin]
    split
    · exact .refl
    · next hrest =>
      obtain ⟨hstep, hrun⟩ := Bool.and_eq_true_iff.mp (h.resolve_left hrest)
      exact .head (.step fun u _ => m.inOrder_of_isOrderly hstep u) (ih hrun)

theorem PoolRun.polled (m : Machine H) : PoolRun T others m m.polled := by
  unfold Machine.polled
  split
  · exact .single (.aside .poll rfl)
  · exact .refl

theorem PoolRun.dropped (m : Machine H) : PoolRun T others m m.dropped := by
  unfold Machine.dropped
  split
  · exact .single .drop
  · exact .refl

/-- Two units that work side by side; the second has a nested scope that takes its time. -/
def twoUnits : List (Step scriptHost) :=
  [.join [[.onUnit "first" [.scope .here .lenient [.yield, .give .null]]],
    [.onUnit "second" [.scope .here .lenient [.scope .here .lenient [.sleep 10]]]]]]

/-- On a pool with one permit the second unit waits until the first has committed. -/
def secondWaited : Machine scriptHost :=
  Machine.settleWithin 60 (Machine.settleWithin 60
    ⟨World.fresh (.pool (.ofSize "memory" 1)) none (), [], .exec 0 .null twoUnits⟩).polled

/-- It is dropped, and its transaction is rolled back in the background. -/
def secondDropped : Machine scriptHost := secondWaited.dropped.cleaned

theorem reached_secondDropped :
    PoolReached (fun _ => True) False "memory" 1 secondDropped := by
  refine ⟨World.fresh (.pool (.ofSize "memory" 1)) none (), 0, .null, twoUnits,
    World.fresh_isQuiet _ _ _, rfl, rfl, ?_⟩
  refine (PoolRun.settleWithin 60 (by decide)).trans ((PoolRun.polled _).trans ?_)
  refine (PoolRun.settleWithin 60 (by decide)).trans ((PoolRun.dropped _).trans ?_)
  exact .single .background

/-- Both transactions have been ended, and the permit is free. -/
theorem pool_holds_secondDropped :
    PoolReached (fun _ => True) False "memory" 1 secondDropped ∧ secondDropped.items = 0 ∧
      secondDropped.world.background = [] ∧ secondDropped.world.hasRuntime = true ∧
      secondDropped.world.source.status.pool =
        some ([.begin 1, .commit 1, .begin 2, .rollback 2], 1) ∧
      ∃ p, secondDropped.world.source = .pool p ∧
        PoolHolds (fun _ => True) False 1 secondDropped p :=
  ⟨reached_secondDropped, rfl, rfl, rfl, rfl, pool_holds reached_secondDropped⟩

end BootEngine.Work
