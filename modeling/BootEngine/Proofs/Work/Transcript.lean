import BootEngine.Proofs.Transaction.Permits
import BootEngine.Work.Run

/-!
# What is heard of a branch

When a program runs branches side by side, one of them has its turn at a time. What is written down
meanwhile, and how the branch comes to its end, is what can be heard of it.

Contents:
* `Entry.unnumbered?`, `openedIn`, `World.requests`: what entries tell, apart from the numbers of
  transactions.
* `Machine.turn?`: the branch that has its turn, as a run of its own.
* `Heard`, `Machine.heard`, `transcript`: what is heard of a branch in a whole run.
-/

namespace BootEngine.Transaction

/-- The events that a pooled source has recorded. -/
def Source.events : Source → List Event
  | .pool p => p.events
  | .scripted _ => []

end BootEngine.Transaction

namespace BootEngine.Work

open Transaction (Handle)

variable {H : Host}

/-! ## What entries tell -/

/-- What an entry shows of the work that has written it, apart from the number of its transaction.
    Marks are not shown, and what the source tells of itself is not about this work alone. -/
def Entry.unnumbered? : Entry H → Option (Entry H)
  | .mark _ => none
  | .source _ => none
  | .transaction found => some (.transaction (found.map fun f => (f.1, 0)))
  | entry => some entry

/-- The transaction that an outermost scope receives with an entry. -/
def Entry.opened? : Entry H → Option Handle
  | .mark (.opened _ handle) => some handle
  | _ => none

/-- The transactions that outermost scopes receive, in order. -/
def openedIn (entries : List (Entry H)) : List Handle := entries.filterMap Entry.opened?

/-- An outermost scope asks for a transaction. -/
def Entry.isRequest : Entry H → Bool
  | .mark (.requested _) => true
  | _ => false

/-- The number of outermost scopes that have asked for a transaction. -/
def World.requests (w : World H) : Nat := w.journal.countP Entry.isRequest

/-- What has been written down since an earlier state, oldest first. -/
def World.since (old w : World H) : List (Entry H) :=
  (w.journal.take (w.journal.length - old.journal.length)).reverse

/-! ## Turns -/

/-- The branch of the outermost join that has its turn, as a run of its own. -/
def Machine.turn? (m : Machine H) : Option (Nat × Machine H) :=
  match m.layers.reverse with
  | .frame _ :: .joining _ done _ :: inner => some (done.length, ⟨m.world, inner.reverse, m.focus⟩)
  | _ => none

/-- What is heard of a branch: something that is written down in its turn, or its end. -/
inductive Heard (H : Host) where
  | wrote (entry : Entry H)
  | ended (outcome : Outcome H)
  | panicked

/-- What has been written down. -/
def Heard.entry? : Heard H → Option (Entry H)
  | .wrote entry => some entry
  | _ => none

/-- How the branch has come to its end. -/
def Heard.fate? : Heard H → Option (Verdict H)
  | .wrote _ => none
  | .ended outcome => some (.ended outcome)
  | .panicked => some .panicked

/-- What is heard of a branch in the next step of a run. -/
def Machine.heard (i : Nat) (m : Machine H) : List (Heard H) :=
  match m.turn? with
  | none => []
  | some (j, inner) =>
    if j = i then
      match inner.layers, inner.focus with
      | [], .finish outcome => [.ended outcome]
      | [], .unwind => [.panicked]
      | _, _ => (m.world.since m.step.world).map .wrote
    else []

/-- What is heard of a branch until the run is at rest, in a number of steps at most. -/
def Machine.hears (i : Nat) : Nat → Machine H → List (Heard H)
  | 0, _ => []
  | fuel + 1, m => if m.isAtRest then [] else m.heard i ++ m.step.hears i fuel

/-- What is heard of a branch in a whole run, which goes as `drive` says. -/
def transcript (i limit fuel : Nat) : Nat → World H → Focus H → List (Heard H)
  | 0, _, _ => []
  | passes + 1, w, focus =>
    Machine.hears i fuel ⟨w, [], focus⟩ ++
      match pass fuel w focus with
      | ⟨w, [], .pause p⟩ =>
        if limit ≤ w.now then []
        else transcript i limit fuel passes (waitFor limit p w) (.enter p)
      | _ => []

end BootEngine.Work
