import BootEngine.Proofs.Work.Invariant

/-!
# Counting scopes and contexts

Who has asked for a transaction waits, works or has left. Every transaction that was opened belongs
to work that goes on, has ended, has found its context taken, or was cut off. Where no work is cut
off, every context is there, or was taken at the end of some work, or has been overwritten.

Contents:
* `asked`, `left`, `openings` and the like: the counts.
* `Balance`, `Balance.act`: they agree with what the run holds.
-/

namespace BootEngine.Work

open Transaction (Terminal Handle Context)

variable {H : Host} {T D : UnitId → Prop}

/-! ## Counts -/

section Counts

variable (u : UnitId) (marks ms : List (Mark H))

/-- The number of outermost scopes of a unit that have asked for a transaction. -/
def asked : Nat :=
  marks.countP fun
    | .requested v => v == u
    | _ => false

/-- The number of outermost scopes of a unit that neither wait nor work any longer. -/
def left : Nat :=
  marks.countP fun
    | .unserved v _ => v == u
    | .withdrawn v => v == u
    | .workEnded v .. => v == u
    | .strayed v _ => v == u
    | .interrupted v _ => v == u
    | _ => false

/-- The number of transactions that have been opened for a unit. -/
def openings : Nat :=
  marks.countP fun
    | .opened v _ => v == u
    | _ => false

/-- The number of outermost scopes of a unit whose work has ended and found a context. -/
def workEnds : Nat :=
  marks.countP fun
    | .workEnded v .. => v == u
    | _ => false

/-- The number of outermost scopes of a unit whose work has ended and found no context. -/
def strays : Nat :=
  marks.countP fun
    | .strayed v _ => v == u
    | _ => false

/-- The number of outermost scopes of a unit whose work has been cut off. -/
def cuts : Nat :=
  marks.countP fun
    | .interrupted v _ => v == u
    | _ => false

/-- The number of contexts of a unit that have been overwritten. -/
def replacements : Nat :=
  marks.countP fun
    | .replaced v _ => v == u
    | _ => false

@[simp] theorem asked_append : asked u (ms ++ marks) = asked u ms + asked u marks :=
  List.countP_append

@[simp] theorem left_append : left u (ms ++ marks) = left u ms + left u marks :=
  List.countP_append

@[simp] theorem openings_append : openings u (ms ++ marks) = openings u ms + openings u marks :=
  List.countP_append

@[simp] theorem workEnds_append : workEnds u (ms ++ marks) = workEnds u ms + workEnds u marks :=
  List.countP_append

@[simp] theorem strays_append : strays u (ms ++ marks) = strays u ms + strays u marks :=
  List.countP_append

@[simp] theorem cuts_append : cuts u (ms ++ marks) = cuts u ms + cuts u marks :=
  List.countP_append

@[simp] theorem replacements_append :
    replacements u (ms ++ marks) = replacements u ms + replacements u marks :=
  List.countP_append

end Counts

/-- The number of contexts that a unit has: one or none. -/
def Ledger.contextCount (u : UnitId) (l : Ledger H) : Nat := (l.contexts u).toList.length

/-- The counts of a unit agree with what the run holds. As long as no work of it has been cut off,
    each transaction has a context, or its context was taken at the end of some work, or it was
    overwritten. -/
structure Balance (u : UnitId) (l : Ledger H) : Prop where
  seated : seats u l.items + left u l.marks = asked u l.marks
  working : outers u l.items + workEnds u l.marks + strays u l.marks + cuts u l.marks =
    openings u l.marks
  held : cuts u l.marks = 0 →
    l.contextCount u + workEnds u l.marks + replacements u l.marks = openings u l.marks

section Acts

variable {u v : UnitId} {l l' : Ledger H} {i : Item H} {s : Multiset (Item H)} {h : Handle}

/-- New marks keep the counts right if what the run holds changes by as much as they tell. -/
theorem Balance.shift (hl : Balance u l) (ms : List (Mark H)) (hmarks : l'.marks = ms ++ l.marks)
    (hseats : seats u l'.items + left u ms = seats u l.items + asked u ms)
    (houters : outers u l'.items + workEnds u ms + strays u ms + cuts u ms =
      outers u l.items + openings u ms)
    (hheld : cuts u ms = 0 → l'.contextCount u + workEnds u ms + replacements u ms =
      l.contextCount u + openings u ms) : Balance u l' := by
  have hseated := hl.seated
  have hworking := hl.working
  refine ⟨?_, ?_, ?_⟩ <;> rw [hmarks]
  · rw [left_append, asked_append]
    omega
  · rw [workEnds_append, strays_append, cuts_append, openings_append]
    omega
  · rw [cuts_append, workEnds_append, replacements_append, openings_append]
    intro hnone
    have hnew := hheld (by omega)
    have hold := hl.held (by omega)
    omega

/-- A mark that counts for nobody. -/
def Mark.isQuiet : Mark H → Bool
  | .requested _ => false
  | .unserved .. => false
  | .withdrawn _ => false
  | .opened .. => false
  | .replaced .. => false
  | .workEnded .. => false
  | .strayed .. => false
  | .interrupted .. => false
  | _ => true

/-- The new marks count for nobody, and as many scopes wait or work as before. -/
theorem Balance.quiet (hl : Balance u l) (ms : List (Mark H)) (hmarks : l'.marks = ms ++ l.marks)
    (hms : ∀ m ∈ ms, m.isQuiet = true) (hseats : seats u l'.items = seats u l.items)
    (houters : outers u l'.items = outers u l.items)
    (hx : l'.contextCount u = l.contextCount u) : Balance u l' := by
  have hnone : ∀ p : Mark H → Bool, (∀ m : Mark H, p m = true → m.isQuiet = false) →
      ms.countP p = 0 := by
    intro p hp
    refine List.countP_eq_zero.mpr fun m hm hpm => ?_
    have hloud := hp m hpm
    rw [hms m hm] at hloud
    cases hloud
  have hasked : asked u ms = 0 := hnone _ fun m hm => by cases m <;> first | rfl | cases hm
  have hleft : left u ms = 0 := hnone _ fun m hm => by cases m <;> first | rfl | cases hm
  have hopen : openings u ms = 0 := hnone _ fun m hm => by cases m <;> first | rfl | cases hm
  have hended : workEnds u ms = 0 := hnone _ fun m hm => by cases m <;> first | rfl | cases hm
  have hstray : strays u ms = 0 := hnone _ fun m hm => by cases m <;> first | rfl | cases hm
  have hcut : cuts u ms = 0 := hnone _ fun m hm => by cases m <;> first | rfl | cases hm
  have hreplaced : replacements u ms = 0 := hnone _ fun m hm => by
    cases m <;> first | rfl | cases hm
  exact hl.shift ms hmarks (by omega) (by omega) fun _ => by omega

theorem contextCount_setContext (x : Option (Context (List (Step H)))) :
    (l.setContext v x).contextCount u =
      if v = u then x.toList.length else l.contextCount u := by
  unfold Ledger.contextCount Ledger.setContext
  dsimp only
  rw [Function.update_apply]
  by_cases hv : v = u
  · rw [if_pos hv.symm, if_pos hv]
  · rw [if_neg (Ne.symm hv), if_neg hv]

theorem contextCount_of_eq_some {c : Context (List (Step H))} (hx : l.contexts u = some c) :
    l.contextCount u = 1 := by
  rw [Ledger.contextCount, hx]
  rfl

theorem contextCount_setContext_some {c : Context (List (Step H))} (hx : l.contexts v = some c)
    (c' : Context (List (Step H))) : (l.setContext v (some c')).contextCount u = l.contextCount u := by
  rw [contextCount_setContext]
  by_cases hv : v = u
  · subst hv
    rw [if_pos rfl, contextCount_of_eq_some hx]
    rfl
  · exact if_neg hv

theorem contextCount_of_eq_none (hx : l.contexts u = none) : l.contextCount u = 0 := by
  rw [Ledger.contextCount, hx]
  rfl

theorem isOuter_ofWork (u v : UnitId) (h : Handle) (c : Context (List (Step H))) (cancelled : Bool)
    (outcome : Outcome H) : (Item.ofWork v h c cancelled outcome).isOuter u = false := by
  obtain ⟨_, _, he⟩ | ⟨_, he⟩ := Item.ofWork_cases v h c cancelled outcome <;> rw [he] <;> rfl

theorem Balance.serve (hl : Balance u l) {p : Option Handle} {n : Handle}
    (hi : l.items = .acquiring v p ::ₘ s) :
    Balance u (((l.openContext v h).upTo n).holding (.outer v h ::ₘ s)) := by
  -- A context that stood there is counted as one that was overwritten.
  cases hx : l.contexts v with
  | none =>
    have hopen : l.openContext v h = (l.note (.opened v h)).setContext v (some (.start h)) := by
      unfold Ledger.openContext
      rw [hx]
    rw [hopen]
    refine hl.shift [.opened v h] rfl (by simp [asked, left, Ledger.holding, hi, Item.isSeat])
      (by simp [openings, workEnds, strays, cuts, Ledger.holding, hi, Item.isOuter]) fun _ => ?_
    show ((l.note _).setContext v _).contextCount u + _ + _ = _
    rw [contextCount_setContext]
    by_cases hv : v = u
    · subst hv
      simp [openings, workEnds, replacements, contextCount_of_eq_none hx]
    · simp [openings, workEnds, replacements, hv]
      rfl
  | some c =>
    have hopen : l.openContext v h =
        ((l.note (.opened v h)).setContext v (some (.start h))).note (.replaced v c.handle) := by
      unfold Ledger.openContext
      rw [hx]
    rw [hopen]
    refine hl.shift [.replaced v c.handle, .opened v h] rfl
      (by simp [asked, left, Ledger.holding, hi, Item.isSeat])
      (by simp [openings, workEnds, strays, cuts, Ledger.holding, hi, Item.isOuter]) fun _ => ?_
    show ((l.note _).setContext v _).contextCount u + _ + _ = _
    rw [contextCount_setContext]
    by_cases hv : v = u
    · subst hv
      simp [openings, workEnds, replacements, contextCount_of_eq_some hx]
    · simp [openings, workEnds, replacements, hv]
      rfl

theorem Balance.leaveNested (hl : Balance u l) (outcome : Option (Outcome H))
    (hi : l.items = .nested v h ::ₘ s) :
    Balance u ((l.leaveNested v h outcome).holding s) := by
  have hseats : seats u s = seats u l.items := by simp [hi, Item.isSeat]
  have houters : outers u s = outers u l.items := by simp [hi, Item.isOuter]
  cases hx : l.contexts v with
  | none =>
    have hleave : l.leaveNested v h outcome = l.note (.nestedEnded v h outcome) := by
      unfold Ledger.leaveNested
      rw [hx]
    rw [hleave]
    exact hl.quiet [_] rfl (by simp [Mark.isQuiet]) hseats houters rfl
  | some c =>
    have hleave : l.leaveNested v h outcome = (l.note (.nestedEnded v h outcome)).setContext v
        (some (if endedWell outcome then c else c.markRolledBack).exit) := by
      unfold Ledger.leaveNested
      rw [hx]
    rw [hleave]
    refine hl.quiet [_] rfl (by simp [Mark.isQuiet]) hseats houters ?_
    exact contextCount_setContext_some hx _

theorem Balance.close (hl : Balance u l) {c : Context (List (Step H))} (outcome : Outcome H)
    (hi : l.items = .outer v h ::ₘ s) (hx : l.contexts v = some c) (t : Terminal) (j : Item H)
    (hj : j.isSeat u = false ∧ j.isOuter u = false) :
    Balance u (((l.endWork v h outcome).note (.ending t h)).holding (j ::ₘ s)) := by
  have hseats : seats u (j ::ₘ s) = seats u s := by rw [seats_cons, hj.1]; rfl
  have houters : outers u (j ::ₘ s) = outers u s := by rw [outers_cons, hj.2]; rfl
  refine hl.shift [.ending t h, .workEnded v h outcome (l.cancelled v)] rfl
    ?_ ?_ fun _ => ?_
  · show seats u (j ::ₘ s) + _ = _
    rw [hseats, hi, seats_cons]
    simp [asked, left, Item.isSeat]
  · show outers u (j ::ₘ s) + _ + _ + _ = _
    rw [houters, hi, outers_cons]
    simp [openings, workEnds, strays, cuts, Item.isOuter]
  · show ((l.note _).setContext v none).contextCount u + _ + _ = _
    rw [contextCount_setContext]
    by_cases hv : v = u
    · subst hv
      simp [openings, workEnds, replacements, contextCount_of_eq_some hx]
    · simp [openings, workEnds, replacements, hv]
      rfl

theorem Balance.interrupt (hl : Balance u l) (hi : l.items = .outer v h ::ₘ s) :
    Balance u ((l.interrupt v h).holding s) := by
  -- What is left behind does not matter, only that a cut is written down.
  obtain ⟨ms, hmarks, hms⟩ := l.marks_interrupt v h
  have hother : v ≠ u → ((l.interrupt v h).holding s).contextCount u = l.contextCount u := by
    intro hv
    show ((l.interrupt v h).contexts u).toList.length = _
    rw [l.contexts_interrupt, Function.update_of_ne (Ne.symm hv)]
    rfl
  refine hl.shift (ms ++ [.interrupted v h])
    (by rw [← List.append_cons]; exact hmarks) ?_ ?_ ?_
  · rcases hms with rfl | ⟨c, -, -, rfl⟩ <;>
      simp [asked, left, Ledger.holding, hi, Item.isSeat]
  · rcases hms with rfl | ⟨c, -, -, rfl⟩ <;>
      simp [openings, workEnds, strays, cuts, Ledger.holding, hi, Item.isOuter]
  · by_cases hv : v = u
    · subst hv
      rcases hms with rfl | ⟨c, -, -, rfl⟩ <;> simp [cuts]
    · rw [hother hv]
      rcases hms with rfl | ⟨c, -, -, rfl⟩ <;> simp [openings, workEnds, replacements]

/-- Every act keeps the counts right. -/
theorem Balance.act (hl : Balance u l) (hact : Act T D l l') : Balance u l' := by
  cases hact with
  | advance hn => exact hl.quiet [] rfl (by simp) rfl rfl rfl
  | cancel v => exact hl.quiet [.cancelled v] rfl (by simp [Mark.isQuiet]) rfl rfl rfl
  | @refuse v hc => exact hl.quiet [.refused v] rfl (by simp [Mark.isQuiet]) rfl rfl rfl
  | @request v p n hc hx hp hT =>
    exact hl.shift [.requested v] rfl (by simp [asked, left, Ledger.holding, Item.isSeat])
      (by simp [openings, workEnds, strays, cuts, Ledger.holding, Item.isOuter])
      fun _ => by simp [openings, workEnds, replacements]; rfl
  | @unserved v p s e hi he =>
    exact hl.shift [.unserved v e] rfl (by simp [asked, left, Ledger.holding, hi, Item.isSeat])
      (by simp [openings, workEnds, strays, cuts, Ledger.holding, hi, Item.isOuter])
      fun _ => by simp [openings, workEnds, replacements]; rfl
  | @withdraw v p s hi =>
    exact hl.shift [.withdrawn v] rfl (by simp [asked, left, Ledger.holding, hi, Item.isSeat])
      (by simp [openings, workEnds, strays, cuts, Ledger.holding, hi, Item.isOuter])
      fun _ => by simp [openings, workEnds, replacements]; rfl
  | serve hi hc hp => exact hl.serve hi
  | @enterNested v c hx =>
    exact hl.quiet [_] rfl (by simp [Mark.isQuiet]) (by simp [Ledger.holding, Item.isSeat])
      (by simp [Ledger.holding, Item.isOuter]) (contextCount_setContext_some hx _)
  | leaveNested outcome hi => exact hl.leaveNested outcome hi
  | @defer v c effect hx =>
    exact hl.quiet [_] rfl (by simp [Mark.isQuiet]) rfl rfl (contextCount_setContext_some hx _)
  | @close v h c s outcome hi hx hT =>
    exact hl.close outcome hi hx _ _ ⟨isSeat_ofWork .., isOuter_ofWork ..⟩
  | @stray v h s hi hx =>
    exact hl.shift [_, .strayed v h] rfl (by simp [asked, left, Ledger.holding, hi, Item.isSeat])
      (by simp [openings, workEnds, strays, cuts, Ledger.holding, hi, Item.isOuter])
      fun _ => by simp [openings, workEnds, replacements]; rfl
  | interrupt hi hT => exact hl.interrupt hi
  | @committed v h effects value s hi =>
    exact hl.quiet [_] rfl (by simp [Mark.isQuiet]) (by simp [Ledger.holding, hi, Item.isSeat])
      (by simp [Ledger.holding, hi, Item.isOuter]) rfl
  | @commitFailed v h effects value s reason hi =>
    exact hl.quiet [_, _] rfl (by simp [Mark.isQuiet]) (by simp [Ledger.holding, hi, Item.isSeat])
      (by simp [Ledger.holding, hi, Item.isOuter]) rfl
  | @rolledBack v h outcome s failure hi =>
    exact hl.quiet [_, _] rfl (by simp [Mark.isQuiet]) (by simp [Ledger.holding, hi, Item.isSeat])
      (by simp [Ledger.holding, hi, Item.isOuter]) rfl
  | @dropCall i h s hi hc =>
    have hseat : i.isSeat u = false := by cases i <;> first | rfl | cases hc
    have houter : i.isOuter u = false := by cases i <;> first | rfl | cases hc
    exact hl.quiet [_] rfl (by simp [Mark.isQuiet]) (by simp [Ledger.holding, hi, hseat])
      (by simp [Ledger.holding, hi, houter]) rfl
  | @startEffect v h index effect rest value s hi =>
    exact hl.quiet [_] rfl (by simp [Mark.isQuiet]) (by simp [Ledger.holding, hi, Item.isSeat])
      (by simp [Ledger.holding, hi, Item.isOuter]) rfl
  | @finishEffects v h index value s hi =>
    exact hl.quiet [_] rfl (by simp [Mark.isQuiet]) (by simp [Ledger.holding, hi, Item.isSeat])
      (by simp [Ledger.holding, hi, Item.isOuter]) rfl
  | @dropEffects v h index rest value s hi =>
    exact hl.quiet [] rfl (by simp) (by simp [Ledger.holding, hi, Item.isSeat])
      (by simp [Ledger.holding, hi, Item.isOuter]) rfl
  | @direct v c t hx hT =>
    exact hl.quiet [_, _] rfl (by simp [Mark.isQuiet]) (by simp [Ledger.holding, Item.isSeat])
      (by simp [Ledger.holding, Item.isOuter]) rfl
  | @directEnded v h s t failure hi =>
    exact hl.quiet [_] rfl (by simp [Mark.isQuiet]) (by simp [Ledger.holding, hi, Item.isSeat])
      (by simp [Ledger.holding, hi, Item.isOuter]) rfl
  | startCleanup due failure hb =>
    exact hl.quiet [_] rfl (by simp [Mark.isQuiet]) rfl rfl rfl
  | endCleanup hb => exact hl.quiet [_] rfl (by simp [Mark.isQuiet]) rfl rfl rfl

end Acts

end BootEngine.Work
