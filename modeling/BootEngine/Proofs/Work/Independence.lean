import BootEngine.Proofs.Work.Passes
import BootEngine.Work.Script

/-!
# Branches that are independent

Programs side by side that have no unit of work in common run on one pooled source, which has a
permit for each outermost scope. Each of them does what it does when it is run alone on a source of
its own: neither the permits, the numbers of transactions and the events that it shares with the
others, nor what the others wait for and leave to the background, can be seen by it.

There is one way in which a branch can harm another: a panic of one branch unwinds the join, and the
others are dropped wherever they are.

Results:
* `units_independent`: a branch that comes to its end in the join has done what it does alone.
* `panic_cuts_others_off`: a branch that a panic of another one cuts off has not.
-/

namespace BootEngine.Work

open Transaction (Terminal Handle Source Event)

variable {H : Host}

/-! ## What belongs to a branch -/

/-- Which branch a unit of work belongs to, by its name, and which one an action; and what a branch
    sees of the application. -/
structure Division (H : Host) where
  owner : String → Nat
  actor : H.Action → Nat
  same : Nat → H.State → H.State → Prop

namespace Division

/-- What belongs to a branch. -/
def realm (d : Division H) (i : Nat) : Realm H :=
  ⟨fun name => d.owner name = i, fun action => d.actor action = i, d.same i⟩

/-- What belongs to the other branches. -/
def others (d : Division H) (i : Nat) : Realm H :=
  ⟨fun name => d.owner name ≠ i, fun action => d.actor action ≠ i, Eq⟩

/-- In the application the branches do not see each other. -/
structure IsFair (d : Division H) : Prop where
  own : ∀ i, (d.realm i).IsClosed
  hidden : ∀ i action x y, d.actor action ≠ i → d.same i x y →
    d.same i (H.perform action x).2 y
  refl : ∀ i x, d.same i x x

/-- Each branch works on its own units only. -/
def Keeps (d : Division H) (branches : List (List (Step H))) : Prop :=
  ∀ (i : Nat) branch, branches[i]? = some branch →
    Step.KeepsToAll (d.realm i) (d.owner "main" = i) branch

end Division

/-! ## What a branch does -/

/-- A pooled source on which nothing has happened, and the bounds of a run on it. -/
structure Ground (H : Host) where
  name : String
  size : Nat
  acquireLimit : Option Nat
  host : H.State
  limit : Nat
  fuel : Nat
  passes : Nat

namespace Ground

/-- The world at first. -/
def world (g : Ground H) : World H := .fresh (.pool (.ofSize g.name g.size)) g.acquireLimit g.host

/-- Runs a program. -/
def run (g : Ground H) (program : List (Step H)) : World H × Verdict H :=
  drive g.limit g.fuel g.passes g.world (.exec 0 .null program)

/-- What is heard of a branch when programs run side by side. -/
def heard (g : Ground H) (i : Nat) (branches : List (List (Step H))) : List (Heard H) :=
  transcript i g.limit g.fuel g.passes g.world (.exec 0 .null [.join branches])

end Ground

/-- The events about the transactions that are opened in what has been heard, numbered in this
    order, once the background has run. -/
def eventsOf (T : List (Heard H)) (w : World H) : List Event :=
  ((w.elapse 1).source.events.filter (·.id ∈ openedIn (entriesOf T))).map
    (Event.renumber fun id => (openedIn (entriesOf T)).idxOf id + 1)

/-- What has been heard of a branch in a run is what it does alone. -/
structure DoesTheSame (T : List (Heard H)) (joint : World H) (alone : World H × Verdict H) :
    Prop where
  /-- It writes down the same results, readings and effects, apart from numbers of transactions. -/
  entries : (entriesOf T).filterMap Entry.unnumbered? =
    alone.1.journal.reverse.filterMap Entry.unnumbered?
  /-- It comes to the same end. -/
  fate : fatesOf T = [alone.2]
  /-- The same happens to its transactions. -/
  events : eventsOf T joint = (alone.1.elapse 1).source.events

/-! ## At first -/

section Start

variable {d : Division H} {g : Ground H} {branches : List (List (Step H))} {i : Nat}
  {branch : List (Step H)}

/-- At first there is the first unit only. -/
def startPairing (own : Prop) [Decidable own] : Pairing := ⟨if own then [(0, 0)] else [], []⟩

theorem mem_startPairing {own : Prop} [Decidable own] {p : UnitId × UnitId} :
    p ∈ (startPairing own).units ↔ own ∧ p = (0, 0) := by
  by_cases h : own <;> simp [startPairing, h]

theorem tied_start {R : Realm H} {own : Prop} [Decidable own] {steps : List (Step H)}
    (h : Step.KeepsToAll R own steps) : Tied R (startPairing own) 0 0 steps :=
  ⟨own, fun hown => mem_startPairing.mpr ⟨hown, rfl⟩, h⟩

/-- A world in which nothing has happened agrees with itself. -/
theorem agree_start {R : Realm H} {own : Prop} [Decidable own] (hown : R.names "main" → own)
    (hhost : R.same g.host g.host) :
    Agree R (startPairing own) g.size g.world g.world where
  runtime := ⟨rfl, rfl⟩
  host := hhost
  unique := by
    refine ⟨fun p hp q hq => ?_, fun p hp => (List.not_mem_nil hp).elim⟩
    rw [(mem_startPairing.mp hp).2, (mem_startPairing.mp hq).2]
  made := fun p hp => by
    rw [(mem_startPairing.mp hp).2]
    exact ⟨Nat.one_pos, Nat.one_pos⟩
  begun := fun p hp => (List.not_mem_nil hp).elim
  units := fun p hp => by
    rw [(mem_startPairing.mp hp).2]
    exact ⟨rfl, .none⟩
  names := fun name hname => by
    show Option.Rel _ (List.lookup name [("main", 0)]) (List.lookup name [("main", 0)])
    by_cases hmain : name = "main"
    · subst hmain
      exact .some (mem_startPairing.mpr ⟨hown hname, rfl⟩)
    · rw [List.lookup_cons, beq_eq_false_iff_ne.mpr hmain]
      exact .none
  spare := ⟨⟨_, rfl, rfl, rfl, Nat.sub_le ..⟩, ⟨_, rfl, rfl, rfl, Nat.sub_le ..⟩⟩
  fewer := Nat.le_refl _

/-- The setting in which a branch is looked at. -/
def Division.setting (d : Division H) (g : Ground H) (i : Nat) (branch : List (Step H)) :
    Setting H where
  own := d.realm i
  theirs := d.others i
  permits := g.size
  index := i
  limit := g.limit
  fuel := g.fuel
  start := g.world
  program := branch

theorem Division.others_closed (d : Division H) (i : Nat) : (d.others i).IsClosed where
  answers := fun action _ _ _ hsame => congrArg (fun x => (H.perform action x).1) hsame
  keeps := fun action _ _ _ hsame => congrArg (fun x => (H.perform action x).2) hsame

theorem Division.IsFair.setting (h : d.IsFair) (g : Ground H) (i : Nat) (branch : List (Step H)) :
    (d.setting g i branch).IsFair where
  own := h.own i
  theirs := d.others_closed i
  names := fun _ hown hother => hother hown
  clean := rfl
  hidden := h.hidden i
  steady := fun _ => rfl

theorem Division.realm_within {j : Nat} (hj : j ≠ i) : (d.realm j).Within (d.others i) :=
  ⟨fun _ hname heq => hj (hname.symm.trans heq), fun _ hactor heq => hj (hactor.symm.trans heq)⟩

/-- The two runs start abreast. -/
theorem abreast_start (hfair : d.IsFair) (hkeeps : d.Keeps branches)
    (hbranch : branches[i]? = some branch) :
    Abreast (d.setting g i branch) 0 false [] g.world (branches.map .idle)
      (startPairing (d.owner "main" = i)) (startPairing (d.owner "main" ≠ i)) g.world where
  shared := {
    agree := agree_start id (hfair.refl i g.host)
    theirs := agree_start id rfl
    nothing := ⟨fun p hp => by
      have hmain := (mem_startPairing.mp hp).1
      have hnone : (startPairing (d.owner "main" = i)).leftUnits = [] := by
        rw [Pairing.leftUnits, startPairing, if_neg hmain]
        rfl
      rw [hnone]
      exact ⟨List.not_mem_nil, List.not_mem_nil⟩, fun _ hid => (List.not_mem_nil hid).elim⟩
    told := ⟨rfl, rfl, rfl, rfl⟩
    foresees := ⟨⟨fun _ hc => (List.not_mem_nil hc).elim, fun _ hc => (List.not_mem_nil hc).elim⟩,
      fun _ he => (List.not_mem_nil he).elim, .nil⟩ }
  quiet := fun _ _ hc => (List.not_mem_nil hc).elim
  standing := by
    refine ⟨.idle branch, ?_, .idle rfl rfl rfl rfl (tied_start (hkeeps i branch hbranch))⟩
    show (branches.map Branch.idle)[i]? = _
    rw [List.getElem?_map, hbranch]
    rfl
  others := fun j b hj hb f hf => by
    rw [List.getElem?_map] at hb
    obtain ⟨steps, hsteps, rfl⟩ := Option.map_eq_some_iff.mp hb
    cases hf
    refine .exec .null (tied_start ?_)
    exact Step.KeepsToAll.mono (Division.realm_within hj)
      (fun hmain heq => hj (hmain.symm.trans heq)) steps (hkeeps j steps hsteps)

end Start

/-! ## Independence -/

/-- What follows from the two runs for a branch that has come to its end in both. -/
theorem Concluded.doesTheSame {s : Setting H} {passes : Nat} {T : List (Heard H)} {w v : World H}
    {N F : Pairing} {verdict : Verdict H} (h : Concluded s passes T w N F v verdict) :
    DoesTheSame T w (s.alone passes) := by
  rw [h.alone]
  refine ⟨h.shared.told.shown, h.fate, ?_⟩
  obtain ⟨hfresh, hfresh'⟩ := h.shared.foresees.fresh
  obtain ⟨hspare, hspare'⟩ := h.shared.agree.spare
  rw [eventsOf, events_elapse hfresh hspare Nat.one_ne_zero,
    events_elapse hfresh' hspare' Nat.one_ne_zero]
  refine h.shared.told.renumber h.shared.agree.unique ?_
  rw [h.shared.told.opened]
  exact h.shared.foresees.alike

/-- Branches that have no unit of work in common are independent while the pool suffices: if the run
    of all of them ends, or the branch has come to its end before the run stops, the branch has done
    what it does alone. -/
theorem units_independent (d : Division H) (hfair : d.IsFair) (g : Ground H)
    {branches : List (List (Step H))} (hkeeps : d.Keeps branches) {i : Nat}
    {branch : List (Step H)} (hbranch : branches[i]? = some branch)
    (hpool : (g.run [.join branches]).1.requests ≤ g.size)
    (hends : (∃ outcome, (g.run [.join branches]).2 = .ended outcome) ∨
      fatesOf (g.heard i branches) ≠ []) :
    DoesTheSame (g.heard i branches) (g.run [.join branches]).1 (g.run branch) := by
  obtain ⟨N, F, v, verdict, hconcluded⟩ := drive_abreast (hfair.setting g i branch)
    (opens_first i g.world branches) (abreast_start hfair hkeeps hbranch) hpool hends
  rw [Nat.zero_add] at hconcluded
  exact hconcluded.doesTheSame

/-! ## Scripts side by side -/

/-- Scripts act on nothing but their units. -/
def Division.ofOwner (owner : String → Nat) : Division scriptHost :=
  ⟨owner, nofun, fun _ => Eq⟩

theorem Division.ofOwner_isFair (owner : String → Nat) : (Division.ofOwner owner).IsFair where
  own := fun _ => ⟨nofun, nofun⟩
  hidden := nofun
  refl := fun _ _ => rfl

/-- A pool with two permits. -/
def twoPermits : Ground scriptHost := ⟨"memory", 2, none, (), 1000, 60, 10⟩

/-- The second branch has the units that are called second, the first all others. -/
def firstAndSecond : Division scriptHost := .ofOwner fun name => if name = "second" then 1 else 0

/-- A branch that commits and one that fails, each on its own unit. -/
def commitAndFail : List (List (Step scriptHost)) :=
  [[.onUnit "first" [.scope .here .lenient [.defer true [.announce (.int 1)], .sleep 5]]],
    [.onUnit "second" [.scope .here .lenient [.yield, .fail "refused"]]]]

theorem keeps_commitAndFail : firstAndSecond.Keeps commitAndFail := by
  intro i branch hbranch
  match i, hbranch with
  | 0, rfl =>
    exact ⟨⟨rfl, ⟨trivial, ⟨trivial, trivial, trivial⟩, trivial, trivial⟩, trivial⟩, trivial⟩
  | 1, rfl => exact ⟨⟨rfl, ⟨trivial, trivial, trivial, trivial⟩, trivial⟩, trivial⟩

/-- The second branch has another number for its transaction in the join, and its events stand
    between those of the first. -/
theorem units_independent_commitAndFail : firstAndSecond.IsFair ∧
    firstAndSecond.Keeps commitAndFail ∧
    (twoPermits.run [.join commitAndFail]).1.requests = 2 ∧
    (twoPermits.run [.join commitAndFail]).2 = .ended (.ok .null) ∧
    ((twoPermits.run [.join commitAndFail]).1.elapse 1).source.events =
      [.begin 1, .begin 2, .rollback 2, .commit 1] ∧
    ((twoPermits.run [.onUnit "second" [.scope .here .lenient [.yield, .fail "refused"]]]).1.elapse
      1).source.events = [.begin 1, .rollback 1] ∧
    DoesTheSame (twoPermits.heard 1 commitAndFail) (twoPermits.run [.join commitAndFail]).1
      (twoPermits.run [.onUnit "second" [.scope .here .lenient [.yield, .fail "refused"]]]) :=
  ⟨Division.ofOwner_isFair _, keeps_commitAndFail, rfl, rfl, rfl, rfl,
    units_independent firstAndSecond (Division.ofOwner_isFair _) twoPermits keeps_commitAndFail rfl
      (by decide) (.inl ⟨_, rfl⟩)⟩

/-- A branch that takes its time, beside one that panics. -/
def waitAndPanic : List (List (Step scriptHost)) :=
  [[.onUnit "first" [.scope .here .lenient [.sleep 5, .give (.int 1)]]], [.panic]]

/-- The panic of the second branch unwinds the join: the first one is dropped, and its transaction
    is rolled back. Alone it commits. -/
theorem panic_cuts_others_off : firstAndSecond.IsFair ∧ firstAndSecond.Keeps waitAndPanic ∧
    (twoPermits.run [.join waitAndPanic]).1.requests ≤ twoPermits.size ∧
    eventsOf (twoPermits.heard 0 waitAndPanic) (twoPermits.run [.join waitAndPanic]).1 =
      [.begin 1, .rollback 1] ∧
    ((twoPermits.run
        [.onUnit "first" [.scope .here .lenient [.sleep 5, .give (.int 1)]]]).1.elapse
      1).source.events = [.begin 1, .commit 1] ∧
    ¬ DoesTheSame (twoPermits.heard 0 waitAndPanic) (twoPermits.run [.join waitAndPanic]).1
      (twoPermits.run [.onUnit "first" [.scope .here .lenient [.sleep 5, .give (.int 1)]]]) := by
  have hkeeps : firstAndSecond.Keeps waitAndPanic := by
    intro i branch hbranch
    match i, hbranch with
    | 0, rfl => exact ⟨⟨rfl, ⟨trivial, trivial, trivial, trivial⟩, trivial⟩, trivial⟩
    | 1, rfl => exact ⟨trivial, trivial⟩
  refine ⟨Division.ofOwner_isFair _, hkeeps, by decide, rfl, rfl, fun h => ?_⟩
  have hrolledBack : eventsOf (twoPermits.heard 0 waitAndPanic)
      (twoPermits.run [.join waitAndPanic]).1 = [.begin 1, .rollback 1] := rfl
  have hevents := hrolledBack.symm.trans h.events
  cases hevents

end BootEngine.Work
