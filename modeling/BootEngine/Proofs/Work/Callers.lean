import BootEngine.Proofs.Work.Changes

/-!
# Callers side by side

Several callers run programs of their own in one world. They take turns in any order: at each turn
one of them takes a single step, or looks again at what it is waiting for. In between the rollbacks
in the background run, the clock moves on, and others use the source, which may have any state
afterwards; so whatever a source may answer is answered in some run.

Contents:
* `Thread`, `Thread.go`: a run apart from its world, and its next step.
* `Turn`, `Callers`, `Callers.play`: turns, and what they do.
* `Unnoticed`, `Spares`: changes of a world that other callers do not notice.
* `Unnoticed.runBackground`, `spares_addUnit`, `spares_setContext`: such changes.
-/

namespace BootEngine.Work

open Transaction (Terminal Handle Source Context)

variable {H : Host}

/-! ## Threads and turns -/

/-- A run apart from its world: what stands around its focus, and the focus. -/
structure Thread (H : Host) where
  layers : List (Layer H)
  focus : Focus H

/-- A run apart from its world. -/
def Machine.thread (m : Machine H) : Thread H := ⟨m.layers, m.focus⟩

namespace Thread

/-- A caller that starts a program. -/
def starting (u : UnitId) (steps : List (Step H)) : Thread H := ⟨[], .exec u .null steps⟩

/-- A caller whose program has ended. -/
def ended (outcome : Outcome H) : Thread H := ⟨[], .finish outcome⟩

/-- A caller has its turn: if it waits, it looks again at what it is waiting for, and else it takes
    a step. -/
def go (t : Thread H) (w : World H) : Machine H :=
  match t.layers, t.focus with
  | [], .pause p => ⟨w, [], .enter p⟩
  | layers, focus => Machine.step ⟨w, layers, focus⟩

end Thread

/-- What happens next. -/
inductive Turn where
  /-- A caller, by its place in the list, goes on. -/
  | go (place : Nat)
  /-- The rollbacks in the background run as far as they can. -/
  | background
  /-- The clock moves on. -/
  | elapse (now : Nat)
  /-- Others use the source. -/
  | share (source : Source)

/-- Callers in one world. -/
structure Callers (H : Host) where
  world : World H
  threads : List (Thread H)

namespace Callers

/-- One turn; a caller that does not exist does nothing. -/
def take (c : Callers H) : Turn → Callers H
  | .go place =>
    match c.threads[place]? with
    | none => c
    | some t => ⟨(t.go c.world).world, c.threads.set place (t.go c.world).thread⟩
  | .background => { c with world := c.world.runBackground }
  | .elapse now => { c with world := { c.world with now } }
  | .share source => { c with world := { c.world with source } }

/-- All turns, one after another. -/
def play (turns : List Turn) (c : Callers H) : Callers H := turns.foldl take c

theorem take_go {c : Callers H} {place : Nat} {t : Thread H} (h : c.threads[place]? = some t) :
    c.take (.go place) = ⟨(t.go c.world).world, c.threads.set place (t.go c.world).thread⟩ := by
  simp only [take, h]

theorem take_go_of_none {c : Callers H} {place : Nat} (h : c.threads[place]? = none) :
    c.take (.go place) = c := by
  simp only [take, h]

end Callers

/-! ## Changes that nobody notices -/

/-- Neither the units nor the application change. -/
structure Unnoticed (w w' : World H) : Prop where
  units : w'.units = w.units
  host : w'.host = w.host

section Unnoticed

variable {w w' w'' : World H}

theorem Unnoticed.refl (w : World H) : Unnoticed w w := ⟨rfl, rfl⟩

theorem Unnoticed.trans (h : Unnoticed w w') (h' : Unnoticed w' w'') : Unnoticed w w'' :=
  ⟨h'.units.trans h.units, h'.host.trans h.host⟩

theorem Unnoticed.unit (h : Unnoticed w w') (u : UnitId) : w'.unit u = w.unit u :=
  congrArg (fun units => (units[u]?).getD UnitState.idle) h.units

theorem Unnoticed.mark (h : Unnoticed w w') (m : Mark H) : Unnoticed w (w'.mark m) :=
  ⟨h.units, h.host⟩

theorem Unnoticed.letGo (h : Unnoticed w w') (handles : List Handle) :
    Unnoticed w (w'.letGo handles) := ⟨h.units, h.host⟩

theorem Unnoticed.withSource (h : Unnoticed w w') (source : Source) :
    Unnoticed w { w' with source } := ⟨h.units, h.host⟩

theorem Unnoticed.withdraw (h : Unnoticed w w') (wait : Acquiring) :
    Unnoticed w (wait.withdraw w') := by
  cases wait with
  | ticket number => exact h.withSource _
  | answer due reply => exact h

theorem Unnoticed.recordCall (h : Unnoticed w w') (call : Transaction.Call) :
    Unnoticed w (w'.recordCall call) := by
  unfold World.recordCall
  split
  · exact ⟨h.units, h.host⟩
  · exact h

theorem Unnoticed.request (h : Unnoticed w w') (u : UnitId) : Unnoticed w (w'.request u).2 :=
  ((h.mark _).recordCall .begin).withSource _

theorem Unnoticed.startFinish (h : Unnoticed w w') (terminal : Terminal) (handle : Handle) :
    Unnoticed w (w'.startFinish terminal handle).2 :=
  ((h.mark _).recordCall (.finish terminal)).withSource _

theorem Unnoticed.noteRollback (h : Unnoticed w w') (handle : Handle) (failure : Option String) :
    Unnoticed w (w'.noteRollback handle failure) := by
  cases failure with
  | none => exact h.mark _
  | some reason => exact ⟨h.units, h.host⟩

theorem Unnoticed.pollCleanup (h : Unnoticed w w') (c : Cleanup) :
    Unnoticed w (w'.pollCleanup c) := by
  cases c with
  | fresh handle =>
    have hstarted := h.startFinish .rollback handle
    simp only [World.pollCleanup]
    split
    · exact (hstarted.noteRollback _ _).letGo _
    · exact ⟨hstarted.units, hstarted.host⟩
  | waiting handle due failure =>
    simp only [World.pollCleanup]
    split
    · exact (h.noteRollback _ _).letGo _
    · exact ⟨h.units, h.host⟩

/-- Rollbacks in the background are not noticed. -/
theorem Unnoticed.runBackground (w : World H) : Unnoticed w w.runBackground := by
  have hall : ∀ (cs : List Cleanup) (w' : World H), Unnoticed w w' →
      Unnoticed w (cs.foldl World.pollCleanup w') := by
    intro cs
    induction cs with
    | nil => exact fun w' h => h
    | cons c cs ih => exact fun w' h => ih _ (h.pollCleanup c)
  exact hall w.background _ ⟨rfl, rfl⟩

end Unnoticed

/-! ## Changes that only one caller notices -/

/-- The units of a world, except perhaps one, are as they were; new ones may have been made. -/
structure Spares (own : Option UnitId) (w w' : World H) : Prop where
  longer : w.units.length ≤ w'.units.length
  units : ∀ u < w.units.length, own ≠ some u → w'.unit u = w.unit u

section Spares

variable {own : Option UnitId} {w w' w'' : World H}

theorem Unnoticed.spares (h : Unnoticed w w') : Spares own w w' :=
  ⟨Nat.le_of_eq (congrArg List.length h.units.symm), fun u _ _ => h.unit u⟩

theorem Spares.trans (h : Spares own w w') (h' : Spares own w' w'') : Spares own w w'' where
  longer := Nat.le_trans h.longer h'.longer
  units := fun u hu hown => by
    have hu' : u < w'.units.length := Nat.lt_of_lt_of_le hu h.longer
    rw [h'.units u hu' hown, h.units u hu hown]

theorem length_setContext {u : UnitId} (hu : u < w.units.length)
    (c : Option (Context (List (Step H)))) : (w.setContext u c).units.length = w.units.length :=
  length_onUnit hu

theorem unit_setContext (w : World H) (u : UnitId) (c : Option (Context (List (Step H)))) :
    (w.setContext u c).unit u = ⟨c, (w.unit u).cancelled⟩ := by
  rw [World.setContext, World.unit_onUnit, if_pos rfl]

theorem spares_setContext {u : UnitId} (hu : u < w.units.length)
    (c : Option (Context (List (Step H)))) : Spares (some u) w (w.setContext u c) where
  longer := Nat.le_of_eq (length_setContext hu c).symm
  units := fun v _ hv => by
    have hne : v ≠ u := fun he => hv (congrArg some he.symm)
    rw [World.setContext, World.unit_onUnit, if_neg hne]

theorem length_addUnit (w : World H) : w.addUnit.2.units.length = w.units.length + 1 :=
  List.length_append

/-- What happens to a new unit happens to nobody else. -/
theorem spares_addUnit (h : Spares (some w.units.length) w.addUnit.2 w') : Spares own w w' where
  longer := by
    have hlonger := h.longer
    rw [length_addUnit] at hlonger
    omega
  units := fun u hu _ => by
    have hne : some w.units.length ≠ some u := fun he => by
      have he := Option.some.inj he
      omega
    have hlt : u < w.addUnit.2.units.length := by
      rw [length_addUnit]
      omega
    rw [h.units u hlt hne, unit_addUnit]

end Spares

end BootEngine.Work
