import BootEngine.Work.Run

/-!
# Realms

Programs that run side by side can have units of work and actions of their own. A program keeps to
a realm if it works on no other units than those of the realm, the fresh ones that it makes itself,
and perhaps the one that it is started on, and if it acts on the application in no other way.

Contents:
* `Realm`: the names of units and the actions that belong together.
* `Step.KeepsTo`: what a program may do that keeps to a realm.
* `Realm.Within`, `Step.KeepsTo.mono`: what keeps to a realm keeps to a greater one.
-/

namespace BootEngine.Work

variable {H : Host}

/-- Units of work, by their names, and actions that belong together, and what they see of the
    application: in some of its states it is the same. -/
structure Realm (H : Host) where
  names : String → Prop
  actions : H.Action → Prop
  same : H.State → H.State → Prop

/-- Actions of a realm answer by what they see, and do the same to it. -/
structure Realm.IsClosed (R : Realm H) : Prop where
  answers : ∀ action s t, R.actions action → R.same s t →
    (H.perform action s).1 = (H.perform action t).1
  keeps : ∀ action s t, R.actions action → R.same s t →
    R.same (H.perform action s).2 (H.perform action t).2

mutual

/-- A step works on the units of a realm only, and on the one that it is executed on only if that is
    its own. It does not make commits fail. What it asks of the source is free. -/
def Step.KeepsTo (R : Realm H) (own : Prop) : Step H → Prop
  | .perform action => R.actions action
  | .note _ => True
  | .announce _ => True
  | .probe what => what = .source ∨ own
  | .give _ => True
  | .fail _ => True
  | .panic => True
  | .sleep _ => True
  | .yield => True
  | .cancel none => own
  | .cancel (some name) => R.names name
  | .armCommitFailure => False
  | .finish _ => own
  | .scope .here _ body => own ∧ Step.KeepsToAll R own body
  | .scope .fresh _ body => Step.KeepsToAll R True body
  | .within .here body => own ∧ Step.KeepsToAll R own body
  | .within .fresh body => Step.KeepsToAll R True body
  | .timeout _ body => own ∧ Step.KeepsToAll R own body
  | .catchPanic body => own ∧ Step.KeepsToAll R own body
  | .defer _ effect => own ∧ Step.KeepsToAll R own effect
  | .onUnit name body => R.names name ∧ Step.KeepsToAll R True body
  | .iterate _ body => Step.KeepsToAll R own body
  | .join branches => Step.KeepsToBranches R own branches

/-- All steps of a program keep to a realm. -/
def Step.KeepsToAll (R : Realm H) (own : Prop) : List (Step H) → Prop
  | [] => True
  | step :: rest => step.KeepsTo R own ∧ Step.KeepsToAll R own rest

/-- Programs side by side keep to a realm. -/
def Step.KeepsToBranches (R : Realm H) (own : Prop) : List (List (Step H)) → Prop
  | [] => True
  | branch :: rest => Step.KeepsToAll R own branch ∧ Step.KeepsToBranches R own rest

end

theorem Step.KeepsToBranches.of_mem {R : Realm H} {own : Prop} {branches : List (List (Step H))}
    (h : Step.KeepsToBranches R own branches) {branch : List (Step H)} (hb : branch ∈ branches) :
    Step.KeepsToAll R own branch := by
  induction branches with
  | nil => exact (List.not_mem_nil hb).elim
  | cons other rest ih =>
    rcases List.mem_cons.mp hb with rfl | hb
    · exact h.1
    · exact ih h.2 hb

/-- A realm is part of another one. -/
structure Realm.Within (R S : Realm H) : Prop where
  names : ∀ name, R.names name → S.names name
  actions : ∀ action, R.actions action → S.actions action

section Within

variable {R S : Realm H}

mutual

/-- What keeps to a realm keeps to a greater one. -/
theorem Step.KeepsTo.mono (hR : R.Within S) {own also : Prop} (hown : own → also) (s : Step H)
    (h : s.KeepsTo R own) : s.KeepsTo S also := by
  match s with
  | .perform action => exact hR.actions action h
  | .note _ => trivial
  | .announce _ => trivial
  | .probe what => exact h.imp_right hown
  | .give _ => trivial
  | .fail _ => trivial
  | .panic => trivial
  | .sleep _ => trivial
  | .yield => trivial
  | .cancel none => exact hown h
  | .cancel (some name) => exact hR.names name h
  | .armCommitFailure => exact h
  | .finish _ => exact hown h
  | .scope .here _ body => exact ⟨hown h.1, Step.KeepsToAll.mono hR hown body h.2⟩
  | .scope .fresh _ body => exact Step.KeepsToAll.mono hR id body h
  | .within .here body => exact ⟨hown h.1, Step.KeepsToAll.mono hR hown body h.2⟩
  | .within .fresh body => exact Step.KeepsToAll.mono hR id body h
  | .timeout _ body => exact ⟨hown h.1, Step.KeepsToAll.mono hR hown body h.2⟩
  | .catchPanic body => exact ⟨hown h.1, Step.KeepsToAll.mono hR hown body h.2⟩
  | .defer _ effect => exact ⟨hown h.1, Step.KeepsToAll.mono hR hown effect h.2⟩
  | .onUnit name body => exact ⟨hR.names name h.1, Step.KeepsToAll.mono hR id body h.2⟩
  | .iterate _ body => exact Step.KeepsToAll.mono hR hown body h
  | .join branches => exact Step.KeepsToBranches.mono hR hown branches h

theorem Step.KeepsToAll.mono (hR : R.Within S) {own also : Prop} (hown : own → also)
    (steps : List (Step H)) (h : Step.KeepsToAll R own steps) : Step.KeepsToAll S also steps := by
  match steps with
  | [] => trivial
  | s :: rest =>
    exact ⟨Step.KeepsTo.mono hR hown s h.1, Step.KeepsToAll.mono hR hown rest h.2⟩

theorem Step.KeepsToBranches.mono (hR : R.Within S) {own also : Prop} (hown : own → also)
    (branches : List (List (Step H))) (h : Step.KeepsToBranches R own branches) :
    Step.KeepsToBranches S also branches := by
  match branches with
  | [] => trivial
  | branch :: rest =>
    exact ⟨Step.KeepsToAll.mono hR hown branch h.1, Step.KeepsToBranches.mono hR hown rest h.2⟩

end

/-- A program that keeps to a realm may be executed on a unit of its own. -/
theorem Step.KeepsToAll.freely {own : Prop} {steps : List (Step H)}
    (h : Step.KeepsToAll R own steps) : Step.KeepsToAll R True steps :=
  h.mono ⟨fun _ hname => hname, fun _ haction => haction⟩ (fun _ => trivial) steps

end Within

end BootEngine.Work
