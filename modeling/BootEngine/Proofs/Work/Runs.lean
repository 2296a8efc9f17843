import BootEngine.Proofs.Work.Bookkeeping
import BootEngine.Proofs.Work.History

/-!
# Runs

A run goes on step by step. Between two looks at it the clock moves on, the rollbacks in the
background run, others use the source, and units are cancelled; while it is suspended, it may be
dropped. When it has ended, another program may follow. Everything that acts keep is kept by every
such run that uses the given units in order.

Contents:
* `Move`, `Run`, `Reached`: one change of a run, runs, and what they reach.
* `Machine.Keeps`, `Machine.Keeps.move`: what is kept, and every change keeps it.
* `Reached.keeps`: it holds wherever a run gets.
* `Machine.staysInOrder`, `scriptInOrder`: checking that a run uses units in order.
* `runScript_reached`: the run of a script is such a run.
-/

namespace BootEngine.Work

open Transaction (Terminal Handle Source Context)

variable {H : Host} {T D : UnitId → Prop}

/-! ## Runs -/

/-- One change of a run. The units in `T` are used in order. -/
inductive Move (T : UnitId → Prop) : Machine H → Machine H → Prop
  | step {m : Machine H} (ho : ∀ u, T u → m.InOrder u) : Move T m m.step
  /-- A suspended run is looked at again. -/
  | poll {w : World H} {p : Paused H} : Move T ⟨w, [], .pause p⟩ ⟨w, [], .enter p⟩
  /-- A suspended run is dropped. -/
  | drop {w : World H} {p : Paused H} : Move T ⟨w, [], .pause p⟩ ⟨p.abandon w, [], .unwind⟩
  /-- When a run has ended, the next program starts. -/
  | next {w : World H} {outcome : Outcome H} (u : UnitId) (value : Value) (steps : List (Step H)) :
      Move T ⟨w, [], .finish outcome⟩ ⟨w, [], .exec u value steps⟩
  /-- So it does when a run has been dropped or has panicked. -/
  | restart {w : World H} (u : UnitId) (value : Value) (steps : List (Step H)) :
      Move T ⟨w, [], .unwind⟩ ⟨w, [], .exec u value steps⟩
  /-- The rollbacks in the background run as far as they can. -/
  | background {w : World H} {layers : List (Layer H)} {focus : Focus H} :
      Move T ⟨w, layers, focus⟩ ⟨w.runBackground, layers, focus⟩
  /-- The clock moves on. -/
  | elapse {w : World H} {layers : List (Layer H)} {focus : Focus H} (now : Nat) :
      Move T ⟨w, layers, focus⟩ ⟨{ w with now }, layers, focus⟩
  /-- Others use the source. -/
  | share {w : World H} {layers : List (Layer H)} {focus : Focus H} (source : Source)
      (hs : nextHandle w.source ≤ nextHandle source) :
      Move T ⟨w, layers, focus⟩ ⟨{ w with source }, layers, focus⟩
  /-- A unit is cancelled from outside. -/
  | cancel {w : World H} {layers : List (Layer H)} {focus : Focus H} (u : UnitId) :
      Move T ⟨w, layers, focus⟩ ⟨w.cancel u, layers, focus⟩

/-- Changes of a run, one after another. -/
abbrev Run (T : UnitId → Prop) : Machine H → Machine H → Prop := Relation.ReflTransGen (Move T)

/-- A world before its first program: no unit has a transaction or has been cancelled. -/
structure World.IsQuiet (w : World H) : Prop where
  contexts : ∀ u, w.context? u = none
  cancelled : ∀ u, w.isCancelled u = false
  background : ∀ c ∈ w.background, c.handle < nextHandle w.source
  marks : w.marks = []

/-- A run from the start of a program in a quiet world gets somewhere. -/
inductive Reached (T : UnitId → Prop) (m : Machine H) : Prop
  | intro (w : World H) (u : UnitId) (value : Value) (steps : List (Step H)) (hw : w.IsQuiet)
      (hr : Run T ⟨w, [], .exec u value steps⟩ m)

theorem Reached.run {m m' : Machine H} (hr : Reached T m) (hrun : Run T m m') : Reached T m' := by
  obtain ⟨w, u, value, steps, hw, hbefore⟩ := hr
  exact ⟨w, u, value, steps, hw, hbefore.trans hrun⟩

theorem Reached.move {m m' : Machine H} (hr : Reached T m) (hm : Move T m m') : Reached T m' :=
  hr.run (.single hm)

/-- A suspended run is dropped; others stay as they are. -/
def Machine.dropped (m : Machine H) : Machine H :=
  match m with
  | ⟨w, [], .pause p⟩ => ⟨p.abandon w, [], .unwind⟩
  | m => m

theorem Reached.dropped {m : Machine H} (hr : Reached T m) : Reached T m.dropped := by
  unfold Machine.dropped
  split
  · exact hr.move .drop
  · exact hr

/-- A suspended run is looked at again; others stay as they are. -/
def Machine.polled (m : Machine H) : Machine H :=
  match m with
  | ⟨w, [], .pause p⟩ => ⟨w, [], .enter p⟩
  | m => m

theorem Run.polled (m : Machine H) : Run T m m.polled := by
  unfold Machine.polled
  split
  · exact .single .poll
  · exact .refl

/-- A unit is cancelled from outside. -/
def Machine.cancelled (u : UnitId) (m : Machine H) : Machine H :=
  { m with world := m.world.cancel u }

theorem Reached.cancelled {m : Machine H} (hr : Reached T m) (u : UnitId) :
    Reached T (m.cancelled u) :=
  hr.move (.cancel u)

/-- The rollbacks in the background run as far as they can. -/
def Machine.cleaned (m : Machine H) : Machine H := { m with world := m.world.runBackground }

theorem Reached.cleaned {m : Machine H} (hr : Reached T m) : Reached T m.cleaned :=
  hr.move .background

/-! ## What is kept -/

/-- What is kept in every run. -/
structure Machine.Keeps (T : UnitId → Prop) (m : Machine H) : Prop where
  invariant : Invariant T m.ledger
  history : History T m.ledger
  covered : ∀ u, T u → m.loose u = 0

/-- A ledger on which nothing is written down, with rollbacks of earlier transactions only. -/
theorem Invariant.start {l : Ledger H} (hx : ∀ u, l.contexts u = none) (hm : l.marks = [])
    (hi : l.items = 0) (hb : ∀ c ∈ l.background, c.handle < l.next) : Invariant T l := by
  have haccount : ∀ h, l.account h = {} := fun h => by rw [Ledger.account, hm]; rfl
  have hitem : ∀ i, i ∉ l.items := fun i => by rw [hi]; exact Multiset.notMem_zero i
  have hmark : ∀ m, m ∉ l.marks := fun m => by rw [hm]; exact List.not_mem_nil
  refine ⟨⟨fun i hin => absurd hin (hitem i), fun u c hc => ?_, fun h hh => ⟨haccount h, ?_⟩,
    fun h hp => absurd ?_ hp, fun h => ?_, fun h => ?_⟩, fun u => ⟨fun _ => ?_, fun _ => ?_⟩⟩
  · rw [hx u] at hc
    cases hc
  · rintro c hc rfl
    exact absurd (hb c hc) (Nat.not_lt.mpr hh)
  · rw [hi]
    rfl
  · rw [hi]
    exact Nat.zero_le 1
  · rw [haccount, hi]
    rfl
  · refine ⟨fun h => hitem _, fun _ c hc => ?_, fun h ho => ?_⟩
    · rw [hx u] at hc
      cases hc
    · rw [haccount] at ho
      cases ho
  · refine ⟨?_, fun ⟨h, hr⟩ => hmark _ hr, fun h => hmark _, fun h hin => absurd hin (hitem _),
      fun h _ => by rw [haccount]⟩
    rw [hi]
    exact Nat.zero_le 1

theorem History.start {l : Ledger H} (hx : ∀ u, l.contexts u = none)
    (hc : ∀ u, l.cancelled u = false) (hm : l.marks = []) (hi : l.items = 0) : History T l where
  balance u := by
    refine ⟨?_, ?_, fun _ => ?_⟩
    · rw [hi, hm]
      rfl
    · rw [hi, hm]
      rfl
    · rw [contextCount_of_eq_none (hx u), hm]
      rfl
  timely := by rw [hm]; trivial
  cancelled u := by rw [hm, hc u]; simp
  kept _ h := by rw [hm]; exact List.not_mem_nil

/-- A step that opens scopes in order leaves no more nested scopes uncovered. -/
theorem Machine.loose_step_of_nests {m : Machine H} {u : UnitId} (ht : m.IsTidy u)
    (hn : m.Nests u) : m.step.loose u ≤ m.loose u := by
  refine m.loose_step fun hopens hx => ?_
  rcases hn hopens with hinside | hseats
  · exact hinside
  · have houters := ht.working.mp hx
    exact absurd (Nat.le_zero.mp (hseats ▸ outers_le_seats u m.items)) houters

/-- A change of a run does a few acts, and leaves no more nested scopes uncovered. -/
theorem Move.acts {m m' : Machine H} (hmove : Move T m m') (ht : ∀ u, T u → m.IsTidy u)
    (hD : ∀ u, D u → T u) : Acts T D m.ledger m'.ledger ∧ ∀ u, T u → m'.loose u ≤ m.loose u := by
  cases hmove with
  | step ho =>
    exact ⟨m.step_acts ht (fun u hu => (ho u hu).opens) fun u hu => (ho u (hD u hu)).finishes,
      fun u hu => Machine.loose_step_of_nests (ht u hu) (ho u hu).opens⟩
  | poll => exact ⟨.refl, fun u _ => Nat.le_refl _⟩
  | @drop w p =>
    have hdrop := Machine.drop_acts (D := D) ht
    rw [← Multiset.add_zero p.items] at hdrop
    exact ⟨hdrop, fun u _ => Nat.zero_le _⟩
  | next u value steps => exact ⟨.refl, fun u _ => Nat.le_refl _⟩
  | restart u value steps => exact ⟨.refl, fun u _ => Nat.le_refl _⟩
  | background => exact ⟨World.runBackground_acts _ _, fun u _ => Nat.le_refl _⟩
  | elapse now => exact ⟨.refl, fun u _ => Nat.le_refl _⟩
  | share source hs => exact ⟨.single (.advance hs), fun u _ => Nat.le_refl _⟩
  | @cancel w layers focus u =>
    have hcancel := Act.cancel (T := T) (D := D) (l := (⟨w, layers, focus⟩ : Machine H).ledger) u
    rw [Machine.ledger, ← World.ledger_cancel] at hcancel
    exact ⟨.single hcancel, fun u _ => Nat.le_refl _⟩

namespace Machine

section Tidy

variable {m : Machine H} {u : UnitId}

/-- A unit that is used in order has a context exactly while an outermost scope works. -/
theorem Keeps.working (hm : m.Keeps T) (hu : T u) :
    m.world.context? u ≠ none ↔ outers u m.items ≠ 0 := by
  have horderly := (hm.invariant.kept u).orderly hu
  have hlives := (hm.invariant.kept u).lives horderly.regular
  constructor
  · intro hx
    obtain ⟨c, hc⟩ := Option.ne_none_iff_exists'.mp hx
    have hkeepers := hlives.holder horderly.unmixed c hc
    have hitem : Item.outer u c.handle ∈ m.items := by
      refine mem_items_of_keepers (h := c.handle) (l := m.ledger) ?_
      rw [hkeepers]
      exact Multiset.mem_singleton_self _
    exact Nat.ne_of_gt (Multiset.countP_pos.mpr ⟨_, hitem, beq_self_eq_true u⟩)
  · intro ho
    obtain ⟨h, s, hs⟩ := exists_outer_of_ne_zero ho
    have hopen : (m.ledger.account h).opener = some u :=
      hm.invariant.sound.opener_of_eq_cons hs rfl
    obtain ⟨-, hfits⟩ := hlives.fits_of_owns hs (beq_self_eq_true h) hopen
    obtain ⟨c, hc, -⟩ := hfits.of_outer.2 horderly.unmixed
    show m.ledger.contexts u ≠ none
    rw [hc]
    simp

theorem Keeps.isTidy (hm : m.Keeps T) (hu : T u) : m.IsTidy u where
  covered := hm.covered u hu
  alone := ((hm.invariant.kept u).orderly hu).alone
  working := hm.working hu

end Tidy

/-- A change of a run does a few acts. -/
theorem Keeps.acts_of_move {m m' : Machine H} (hm : m.Keeps T) (hmove : Move T m m') :
    Acts T T m.ledger m'.ledger ∧ ∀ u, T u → m'.loose u ≤ m.loose u :=
  hmove.acts (fun _ hu => hm.isTidy hu) fun _ => id

/-- Every change of a run keeps it. -/
theorem Keeps.move {m m' : Machine H} (hm : m.Keeps T) (hmove : Move T m m') : m'.Keeps T := by
  obtain ⟨hacts, hloose⟩ := hm.acts_of_move hmove
  obtain ⟨hinvariant, hhistory⟩ := History.acts hm.invariant hm.history hacts
  refine ⟨hinvariant, hhistory, fun u hu => Nat.le_zero.mp ?_⟩
  rw [← hm.covered u hu]
  exact hloose u hu

/-- It holds at the start of a program in a quiet world. -/
theorem keeps_start {w : World H} (hw : w.IsQuiet) (u : UnitId) (value : Value)
    (steps : List (Step H)) : (⟨w, [], .exec u value steps⟩ : Machine H).Keeps T where
  invariant := .start hw.contexts hw.marks rfl hw.background
  history := .start hw.contexts hw.cancelled hw.marks rfl
  covered _ _ := rfl

end Machine

/-- It holds wherever a run gets. -/
theorem Reached.keeps {m : Machine H} (hr : Reached T m) : m.Keeps T := by
  obtain ⟨w, u, value, steps, hw, hrun⟩ := hr
  induction hrun with
  | refl => exact Machine.keeps_start hw u value steps
  | tail _ hmove ih => exact ih.move hmove

section Kept

variable {m : Machine H} {u : UnitId} {h : Handle}

theorem Reached.timely (hr : Reached T m) : Timely T m.world.marks := hr.keeps.history.timely

theorem Reached.orderly (hr : Reached T m) (hu : T u) : Orderly u m.ledger :=
  (hr.keeps.invariant.kept u).orderly hu

/-- The accounts of a unit fit that is used in order. -/
theorem Reached.lives (hr : Reached T m) (hu : T u) : Lives T u m.ledger :=
  (hr.keeps.invariant.kept u).lives (hr.orderly hu).regular

end Kept

/-! ## Whole runs -/

namespace Machine

variable (us : List UnitId)

/-- The next step of a run uses a unit in order. -/
def isInOrder (u : UnitId) (m : Machine H) : Bool :=
  (m.opensOn? != some u || m.layers.any (fun | .frame (.outer v _) => v == u | _ => false) ||
    seats u m.items == 0) && m.finishesOn? != some u

theorem inOrder_of_isInOrder {u : UnitId} {m : Machine H} (h : m.isInOrder u = true) :
    m.InOrder u := by
  obtain ⟨hopens, hfinishes⟩ := Bool.and_eq_true_iff.mp h
  refine ⟨fun ho => ?_, fun hf => ?_⟩
  · rw [ho, bne_self_eq_false, Bool.false_or, Bool.or_eq_true, beq_iff_eq] at hopens
    refine hopens.imp (fun hany => ?_) id
    obtain ⟨layer, hin, hlayer⟩ := List.any_eq_true.mp hany
    split at hlayer
    · next v k =>
      obtain rfl : v = u := beq_iff_eq.mp hlayer
      exact ⟨k, hin⟩
    · cases hlayer
  · rw [hf, bne_self_eq_false] at hfinishes
    cases hfinishes

/-- The steps of a run until it is at rest use units in order. -/
def staysInOrder : Nat → Machine H → Bool
  | 0, _ => true
  | fuel + 1, m => m.isAtRest || us.all (fun u => m.isInOrder u) && staysInOrder fuel m.step

end Machine

section Whole

variable {us : List UnitId}

/-- Steps that use units in order are a run. -/
theorem Run.settleWithin (fuel : Nat) {m : Machine H} (h : m.staysInOrder us fuel = true) :
    Run (· ∈ us) m (m.settleWithin fuel) := by
  induction fuel generalizing m with
  | zero => exact .refl
  | succ fuel ih =>
    rw [Machine.staysInOrder, Bool.or_eq_true] at h
    rw [Machine.settleWithin]
    split
    · exact .refl
    · next hrest =>
      obtain ⟨hall, hrun⟩ := Bool.and_eq_true_iff.mp (h.resolve_left hrest)
      have hstep : Move (· ∈ us) m m.step := .step fun u hu =>
        Machine.inOrder_of_isInOrder (List.all_eq_true.mp hall u hu)
      exact .head hstep (ih hrun)

theorem Reached.settleWithin (fuel : Nat) {m : Machine H} (hr : Reached (· ∈ us) m)
    (h : m.staysInOrder us fuel = true) : Reached (· ∈ us) (m.settleWithin fuel) :=
  hr.run (.settleWithin fuel h)

variable (us)

/-- The passes of a whole run use units in order. -/
def drivesInOrder (limit fuel : Nat) : Nat → World H → Focus H → Bool
  | 0, _, _ => true
  | passes + 1, w, focus =>
    (⟨w, [], focus⟩ : Machine H).staysInOrder us fuel &&
      match pass fuel w focus with
      | ⟨w, [], .pause p⟩ =>
        limit ≤ w.now || drivesInOrder limit fuel passes (waitFor limit p w) (.enter p)
      | _ => true

variable {us}

theorem Reached.waitFor {w : World H} {p : Paused H} (limit : Nat)
    (hr : Reached T ⟨w, [], .pause p⟩) : Reached T ⟨waitFor limit p w, [], .pause p⟩ := by
  have hback := hr.move .background
  unfold Work.waitFor
  dsimp only
  split
  · exact hback
  · exact hback.move (.elapse _)

/-- A whole run under a time limit gets somewhere. -/
theorem Reached.drive (limit fuel passes : Nat) {w : World H} {focus : Focus H}
    (hr : Reached (· ∈ us) ⟨w, [], focus⟩)
    (h : drivesInOrder us limit fuel passes w focus = true) :
    ∃ m, Reached (· ∈ us) m ∧ m.world = (drive limit fuel passes w focus).1 := by
  induction passes generalizing w focus with
  | zero => exact ⟨_, hr, rfl⟩
  | succ passes ih =>
    obtain ⟨hpass, hrest⟩ := Bool.and_eq_true_iff.mp h
    have hreached : Reached (· ∈ us) (pass fuel w focus) := hr.settleWithin fuel hpass
    rw [Work.drive]
    split
    · next w' outcome heq => exact ⟨_, heq ▸ hreached, rfl⟩
    · next w' p heq =>
      rw [heq] at hreached hrest
      split
      · exact ⟨_, hreached.move .drop, rfl⟩
      · next hlimit =>
        rw [Bool.or_eq_true, decide_eq_true_iff] at hrest
        exact ih ((hreached.waitFor limit).move .poll) (hrest.resolve_left hlimit)
    · next w' heq => exact ⟨_, heq ▸ hreached, rfl⟩
    · next w' layers focus' _ _ _ heq => exact ⟨_, heq ▸ hreached, rfl⟩

theorem Reached.elapseUntil (target fuel : Nat) {w : World H} {layers : List (Layer H)}
    {focus : Focus H} (hr : Reached T ⟨w, layers, focus⟩) :
    Reached T ⟨w.elapseUntil target fuel, layers, focus⟩ := by
  induction fuel generalizing w with
  | zero => exact hr.move (.elapse target)
  | succ fuel ih =>
    have hback := hr.move .background
    rw [World.elapseUntil]
    split
    · next time _ => exact ih (hback.move (.elapse time))
    · exact hback.move (.elapse target)

theorem Reached.elapse (ms : Nat) {m : Machine H} (hr : Reached T m) :
    Reached T { m with world := m.world.elapse ms } := by
  unfold World.elapse
  split
  · exact hr
  · exact hr.elapseUntil _ _

variable (us)

/-- The run of a script uses units in order. -/
def scriptInOrder (steps : List (Step H)) (w : World H) : Bool :=
  let bound := 16 * (Step.costAll steps + 4 * w.background.length + 4)
  drivesInOrder us (w.now + timeAllowed) bound bound w (.exec 0 .null steps)

variable {us}

/-- The run of a script gets somewhere. -/
theorem runScript_reached {w : World H} (hw : w.IsQuiet) {steps : List (Step H)}
    (h : scriptInOrder us steps w = true) :
    ∃ m, Reached (· ∈ us) m ∧ m.world = (runScript steps w).1 := by
  obtain ⟨m, hr, hm⟩ := Reached.drive _ _ _ ⟨w, 0, .null, steps, hw, .refl⟩ h
  refine ⟨_, hr.elapse 1, ?_⟩
  rw [hm]
  rfl

/-- No unit has to be used in order for this. -/
theorem scriptInOrder_nil (steps : List (Step H)) (w : World H) : scriptInOrder [] steps w = true := by
  have hstays : ∀ fuel (m : Machine H), m.staysInOrder [] fuel = true := by
    intro fuel
    induction fuel with
    | zero => exact fun _ => rfl
    | succ fuel ih =>
      intro m
      rw [Machine.staysInOrder, ih, List.all_nil, Bool.and_true, Bool.or_true]
  have hdrives : ∀ limit fuel passes (w : World H) (focus : Focus H),
      drivesInOrder [] limit fuel passes w focus = true := by
    intro limit fuel passes
    induction passes with
    | zero => exact fun _ _ => rfl
    | succ passes ih =>
      intro w focus
      rw [drivesInOrder, hstays, Bool.true_and]
      split
      · rw [ih, Bool.or_true]
      · rfl
  exact hdrives _ _ _ _ _

/-- The world before the first program is quiet. -/
theorem World.fresh_isQuiet (source : Source) (acquireLimit : Option Nat) (host : H.State) :
    (World.fresh source acquireLimit host : World H).IsQuiet := by
  have hunit : ∀ u, (World.fresh source acquireLimit host : World H).unit u = .idle := by
    intro u
    cases u <;> rfl
  refine ⟨fun u => ?_, fun u => ?_, (fun c hc => nomatch hc), rfl⟩
  · rw [World.context?, hunit]
    rfl
  · rw [World.isCancelled, hunit]
    rfl

end Whole

end BootEngine.Work
