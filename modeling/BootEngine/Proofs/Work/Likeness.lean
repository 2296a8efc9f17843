import Mathlib.Data.Option.Basic
import BootEngine.Proofs.Work.Ledger
import BootEngine.Proofs.Work.Realms
import BootEngine.Proofs.Work.Transcript

/-!
# Runs that are alike

Two runs of programs that keep to a realm may number their units and transactions differently, and
share the world with whatever else; where units and transactions of one run stand for those of the
other, nothing else about them differs.

Contents:
* `Pairing`: which units and transactions of two runs stand for each other.
* `Tied`: a program that keeps to a realm, on two units.
* `Branch.hasEnded`: branches that have ended.
* `FrameLike`, `PausedLike`, `LayerLike`, `FocusLike`: computations that are alike.
* `ContextLike`, `UnitLike`: units that are alike.
* `Agree`: two worlds agree about what belongs to a realm.
-/

namespace BootEngine.Work

open Transaction (Terminal Handle Source Context Event)

/-! ## Pairings -/

/-- Which units and transactions of one run stand for which of another one. -/
structure Pairing where
  units : List (UnitId × UnitId)
  handles : List (Handle × Handle)

namespace Pairing

/-- One pairing goes further than another. -/
instance : LE Pairing := ⟨fun N N' => N.units ⊆ N'.units ∧ N.handles ⊆ N'.handles⟩

variable {N N' N'' : Pairing}

theorem le_refl (N : Pairing) : N ≤ N := ⟨fun _ h => h, fun _ h => h⟩

theorem le_trans (h : N ≤ N') (h' : N' ≤ N'') : N ≤ N'' :=
  ⟨fun _ hp => h'.1 (h.1 hp), fun _ hp => h'.2 (h.2 hp)⟩

/-- One unit more on either side. -/
def addUnit (u u' : UnitId) (N : Pairing) : Pairing := { N with units := N.units ++ [(u, u')] }

/-- One transaction more on either side. -/
def addHandle (h h' : Handle) (N : Pairing) : Pairing :=
  { N with handles := N.handles ++ [(h, h')] }

theorem le_addUnit (u u' : UnitId) (N : Pairing) : N ≤ N.addUnit u u' :=
  ⟨List.subset_append_left .., fun _ h => h⟩

theorem le_addHandle (h h' : Handle) (N : Pairing) : N ≤ N.addHandle h h' :=
  ⟨fun _ h => h, List.subset_append_left ..⟩

/-- Nothing stands for two. -/
structure IsUnique (N : Pairing) : Prop where
  units : ∀ p ∈ N.units, ∀ q ∈ N.units, p.1 = q.1 ↔ p.2 = q.2
  handles : ∀ p ∈ N.handles, ∀ q ∈ N.handles, p.1 = q.1 ↔ p.2 = q.2

end Pairing

variable {H : Host}

/-- A branch has ended. -/
def Branch.hasEnded {P : Type} : Branch H P → Bool
  | .finished => true
  | _ => false

/-! ## Computations that are alike -/

section Computations

variable (R : Realm H) (N : Pairing)

/-- A program keeps to a realm when it runs on one of two units, or on the other: it may work on
    them only if they stand for each other. -/
def Tied (u u' : UnitId) (steps : List (Step H)) : Prop :=
  ∃ own : Prop, (own → (u, u') ∈ N.units) ∧ Step.KeepsToAll R own steps

/-- Frames that are alike. -/
inductive FrameLike : Frame H → Frame H → Prop
  | after {u u' : UnitId} {rest : List (Step H)} (how : Report) (value : Value)
      (h : Tied R N u u' rest) : FrameLike (.after u how value rest) (.after u' how value rest)
  | nested {u u' : UnitId} {h h' : Handle} (hu : (u, u') ∈ N.units) (hh : (h, h') ∈ N.handles) :
      FrameLike (.nested u h) (.nested u' h')
  | outer {u u' : UnitId} {h h' : Handle} (hu : (u, u') ∈ N.units) (hh : (h, h') ∈ N.handles) :
      FrameLike (.outer u h) (.outer u' h')
  | effects {u u' : UnitId} {rest : List (List (Step H))} (held held' : List Handle)
      (h h' : Handle) (index : Nat) (value : Value) (hu : (u, u') ∈ N.units)
      (hrest : ∀ effect ∈ rest, Step.KeepsToAll R True effect) :
      FrameLike (.effects held u h index rest value) (.effects held' u' h' index rest value)
  | timeout {u u' : UnitId} {rest : List (Step H)} (due : Nat) (value : Value)
      (h : Tied R N u u' rest) : FrameLike (.timeout u due value rest) (.timeout u' due value rest)
  | catchPanic {u u' : UnitId} {rest : List (Step H)} (value : Value) (h : Tied R N u u' rest) :
      FrameLike (.catchPanic u value rest) (.catchPanic u' value rest)

mutual

/-- Suspended computations that are alike. They do not wait for the source, and of branches side by
    side some have not ended. -/
inductive PausedLike : Paused H → Paused H → Prop
  | sleeping (due : Nat) : PausedLike (.sleeping due) (.sleeping due)
  | yielded : PausedLike .yielded .yielded
  | under {f f' : Frame H} {p p' : Paused H} (hf : FrameLike R N f f') (hp : PausedLike p p') :
      PausedLike (.under f p) (.under f' p')
  | branches {u u' : UnitId} {items items' : List (Branch H (Paused H))}
      (hopen : items.all Branch.hasEnded = false)
      (h : BranchesLike u u' items items') : PausedLike (.branches u items) (.branches u' items')

/-- Branches that are alike, on two units. -/
inductive BranchesLike :
    UnitId → UnitId → List (Branch H (Paused H)) → List (Branch H (Paused H)) → Prop
  | nil (u u' : UnitId) : BranchesLike u u' [] []
  | idle {u u' : UnitId} {steps : List (Step H)} {rest rest' : List (Branch H (Paused H))}
      (h : Tied R N u u' steps) (hrest : BranchesLike u u' rest rest') :
      BranchesLike u u' (.idle steps :: rest) (.idle steps :: rest')
  | paused {u u' : UnitId} {p p' : Paused H} {rest rest' : List (Branch H (Paused H))}
      (hp : PausedLike p p') (hrest : BranchesLike u u' rest rest') :
      BranchesLike u u' (.paused p :: rest) (.paused p' :: rest')
  | finished {u u' : UnitId} {rest rest' : List (Branch H (Paused H))}
      (hrest : BranchesLike u u' rest rest') :
      BranchesLike u u' (.finished :: rest) (.finished :: rest')

end

/-- Layers that are alike. -/
inductive LayerLike : Layer H → Layer H → Prop
  | frame {f f' : Frame H} (h : FrameLike R N f f') : LayerLike (.frame f) (.frame f')
  | joining {u u' : UnitId} {done done' todo todo' : List (Branch H (Paused H))}
      (hdone : BranchesLike R N u u' done done') (htodo : BranchesLike R N u u' todo todo') :
      LayerLike (.joining u done todo) (.joining u' done' todo')

/-- Focused computations that are alike. -/
inductive FocusLike : Focus H → Focus H → Prop
  | enter {p p' : Paused H} (h : PausedLike R N p p') : FocusLike (.enter p) (.enter p')
  | exec {u u' : UnitId} {steps : List (Step H)} (value : Value) (h : Tied R N u u' steps) :
      FocusLike (.exec u value steps) (.exec u' value steps)
  | finish (outcome : Outcome H) : FocusLike (.finish outcome) (.finish outcome)
  | unwind : FocusLike .unwind .unwind
  | pause {p p' : Paused H} (h : PausedLike R N p p') : FocusLike (.pause p) (.pause p')

end Computations

section Mono

variable {R : Realm H} {N N' : Pairing} {u u' : UnitId}

theorem Tied.mono (hN : N ≤ N') {steps : List (Step H)} (h : Tied R N u u' steps) :
    Tied R N' u u' steps := by
  obtain ⟨own, hown, hkeeps⟩ := h
  exact ⟨own, fun ho => hN.1 (hown ho), hkeeps⟩

/-- Programs on units that stand for each other may work on them. -/
theorem Tied.own (hu : (u, u') ∈ N.units) {steps : List (Step H)}
    (h : Step.KeepsToAll R True steps) : Tied R N u u' steps := ⟨True, fun _ => hu, h⟩

theorem FrameLike.mono (hN : N ≤ N') {f f' : Frame H} (h : FrameLike R N f f') :
    FrameLike R N' f f' := by
  cases h with
  | after how value h => exact .after how value (h.mono hN)
  | nested hu hh => exact .nested (hN.1 hu) (hN.2 hh)
  | outer hu hh => exact .outer (hN.1 hu) (hN.2 hh)
  | effects held held' h h' index value hu hrest =>
    exact .effects held held' h h' index value (hN.1 hu) hrest
  | timeout due value h => exact .timeout due value (h.mono hN)
  | catchPanic value h => exact .catchPanic value (h.mono hN)

mutual

theorem PausedLike.mono (hN : N ≤ N') {p p' : Paused H} (h : PausedLike R N p p') :
    PausedLike R N' p p' := by
  match h with
  | .sleeping due => exact .sleeping due
  | .yielded => exact .yielded
  | .under hf hp => exact .under (hf.mono hN) (hp.mono hN)
  | .branches hopen h => exact .branches hopen (h.mono hN)

theorem BranchesLike.mono (hN : N ≤ N') {v v' : UnitId} {items items' : List (Branch H (Paused H))}
    (h : BranchesLike R N v v' items items') : BranchesLike R N' v v' items items' := by
  match h with
  | .nil v v' => exact .nil v v'
  | .idle h hrest => exact .idle (h.mono hN) (hrest.mono hN)
  | .paused hp hrest => exact .paused (hp.mono hN) (hrest.mono hN)
  | .finished hrest => exact .finished (hrest.mono hN)

end

theorem LayerLike.mono (hN : N ≤ N') {l l' : Layer H} (h : LayerLike R N l l') :
    LayerLike R N' l l' := by
  cases h with
  | frame h => exact .frame (h.mono hN)
  | joining hdone htodo => exact .joining (hdone.mono hN) (htodo.mono hN)

theorem layersLike_mono (hN : N ≤ N') {layers layers' : List (Layer H)}
    (h : List.Forall₂ (LayerLike R N) layers layers') :
    List.Forall₂ (LayerLike R N') layers layers' := h.imp fun _ _ hl => hl.mono hN

theorem FocusLike.mono (hN : N ≤ N') {f f' : Focus H} (h : FocusLike R N f f') :
    FocusLike R N' f f' := by
  cases h with
  | enter h => exact .enter (h.mono hN)
  | exec value h => exact .exec value (h.mono hN)
  | finish outcome => exact .finish outcome
  | unwind => exact .unwind
  | pause h => exact .pause (h.mono hN)

theorem BranchesLike.append {bs bs' cs cs' : List (Branch H (Paused H))}
    (hb : BranchesLike R N u u' bs bs') (hc : BranchesLike R N u u' cs cs') :
    BranchesLike R N u u' (bs ++ cs) (bs' ++ cs') := by
  match hb with
  | .nil _ _ => exact hc
  | .idle h hrest => exact .idle h (hrest.append hc)
  | .paused hp hrest => exact .paused hp (hrest.append hc)
  | .finished hrest => exact .finished (hrest.append hc)

theorem BranchesLike.reverse {bs bs' : List (Branch H (Paused H))}
    (hb : BranchesLike R N u u' bs bs') : BranchesLike R N u u' bs.reverse bs'.reverse := by
  match hb with
  | .nil _ _ => exact .nil u u'
  | .idle h hrest =>
    rw [List.reverse_cons, List.reverse_cons]
    exact hrest.reverse.append (.idle h (.nil u u'))
  | .paused hp hrest =>
    rw [List.reverse_cons, List.reverse_cons]
    exact hrest.reverse.append (.paused hp (.nil u u'))
  | .finished hrest =>
    rw [List.reverse_cons, List.reverse_cons]
    exact hrest.reverse.append (.finished (.nil u u'))

/-- Branches that have all ended on one side have all ended on the other. -/
theorem BranchesLike.all_finished {bs bs' : List (Branch H (Paused H))}
    (hb : BranchesLike R N u u' bs bs') :
    bs.all Branch.hasEnded = bs'.all Branch.hasEnded := by
  match hb with
  | .nil _ _ => rfl
  | .idle h hrest => rfl
  | .paused hp hrest => rfl
  | .finished hrest => exact hrest.all_finished

theorem BranchesLike.length_eq {bs bs' : List (Branch H (Paused H))}
    (hb : BranchesLike R N u u' bs bs') : bs.length = bs'.length := by
  match hb with
  | .nil _ _ => rfl
  | .idle h hrest => exact congrArg (· + 1) hrest.length_eq
  | .paused hp hrest => exact congrArg (· + 1) hrest.length_eq
  | .finished hrest => exact congrArg (· + 1) hrest.length_eq

theorem BranchesLike.idles {branches : List (List (Step H))}
    (h : ∀ branch ∈ branches, Tied R N u u' branch) :
    BranchesLike R N u u' (branches.map .idle) (branches.map .idle) := by
  induction branches with
  | nil => exact .nil u u'
  | cons branch rest ih =>
    exact .idle (h branch (List.mem_cons_self ..))
      (ih fun b hb => h b (List.mem_cons_of_mem _ hb))

end Mono

/-! ## Worlds that agree -/

section Units

variable (R : Realm H) (N : Pairing)

/-- Transaction contexts that are alike. -/
structure ContextLike (c c' : Context (List (Step H))) : Prop where
  depth : c.depth = c'.depth
  effects : c.effects = c'.effects
  rolledBack : c.rolledBack = c'.rolledBack
  handle : (c.handle, c'.handle) ∈ N.handles
  kept : ∀ effect ∈ c.effects, Step.KeepsToAll R True effect

/-- Units that are alike. -/
structure UnitLike (s s' : UnitState H) : Prop where
  cancelled : s.cancelled = s'.cancelled
  context : Option.Rel (ContextLike R N) s.context s'.context

/-- A pooled source has free permits and nobody waits, and it does not fail. -/
def HasSpare (count : Nat) (s : Source) : Prop :=
  ∃ p, s = .pool p ∧ p.waiting = [] ∧ p.commitFailureArmed = false ∧ count ≤ p.free

/-- Two worlds agree about what belongs to a realm. -/
structure Agree (permits : Nat) (w v : World H) : Prop where
  runtime : w.hasRuntime = true ∧ v.hasRuntime = true
  host : R.same w.host v.host
  unique : N.IsUnique
  made : ∀ p ∈ N.units, p.1 < w.units.length ∧ p.2 < v.units.length
  begun : ∀ p ∈ N.handles, p.1 < nextHandle w.source ∧ p.2 < nextHandle v.source
  units : ∀ p ∈ N.units, UnitLike R N (w.unit p.1) (v.unit p.2)
  names : ∀ name, R.names name →
    Option.Rel (fun u u' => (u, u') ∈ N.units) (w.names.lookup name) (v.names.lookup name)
  /-- On either side there are permits for all that may still ask. -/
  spare : HasSpare (permits - w.requests) w.source ∧ HasSpare (permits - v.requests) v.source
  fewer : v.requests ≤ w.requests

end Units

end BootEngine.Work
