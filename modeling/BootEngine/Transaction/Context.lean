import BootEngine.Text.Record

/-!
# The context of a transaction

What the nested scopes of one unit of work share while its transaction is open: the transaction
itself, how many nested scopes are open, the effects put off until the commit, and whether a nested
scope has failed.

Contents:
* `Handle`: the name of a physical transaction.
* `Context`: the shared state, with `enter`, `exit`, `markRolledBack`, `defer` and `takeEffects`.
-/

namespace BootEngine.Transaction

/-- A physical transaction, known by its number at its source. -/
abbrev Handle := Nat

/-- The state that the scopes of one open transaction share (`TransactionContext`). -/
structure Context (Effect : Type) where
  depth : Nat
  effects : List Effect
  rolledBack : Bool
  handle : Handle

namespace Context

variable {Effect : Type}

/-- The context of a transaction that has just begun (`TransactionContext.new`). -/
def start (handle : Handle) : Context Effect := ⟨0, [], false, handle⟩

/-- A nested scope begins (`TransactionContext.enter`). -/
def enter (c : Context Effect) : Context Effect := { c with depth := c.depth + 1 }

/-- A nested scope ends; the depth stops at zero (`TransactionContext.exit`). -/
def exit (c : Context Effect) : Context Effect := { c with depth := c.depth - 1 }

/-- The transaction can only be rolled back from here on, and its effects are dropped
    (`TransactionContext.mark_rolled_back`). -/
def markRolledBack (c : Context Effect) : Context Effect :=
  { c with rolledBack := true, effects := [] }

/-- Puts an effect off until the commit; a transaction that will be rolled back takes none
    (`TransactionContext.defer`). -/
def defer (effect : Effect) (c : Context Effect) : Context Effect :=
  if c.rolledBack then c else { c with effects := c.effects ++ [effect] }

/-- Hands out the effects that are held (`TransactionContext.take_effects`). -/
def takeEffects (c : Context Effect) : List Effect × Context Effect :=
  (c.effects, { c with effects := [] })

/-- The description of a context. -/
def describe (c : Context Effect) : String :=
  Text.record "TransactionContext"
    [("depth", toString c.depth), ("deferred_effects", toString c.effects.length),
      ("rolled_back", Text.flag c.rolledBack)]

@[simp] theorem handle_enter (c : Context Effect) : c.enter.handle = c.handle := rfl

@[simp] theorem handle_exit (c : Context Effect) : c.exit.handle = c.handle := rfl

@[simp] theorem handle_markRolledBack (c : Context Effect) :
    c.markRolledBack.handle = c.handle := rfl

@[simp] theorem handle_defer (effect : Effect) (c : Context Effect) :
    (c.defer effect).handle = c.handle := by
  unfold defer; split <;> rfl

@[simp] theorem rolledBack_defer (effect : Effect) (c : Context Effect) :
    (c.defer effect).rolledBack = c.rolledBack := by
  unfold defer; split <;> rfl

@[simp] theorem depth_defer (effect : Effect) (c : Context Effect) :
    (c.defer effect).depth = c.depth := by
  unfold defer; split <;> rfl

theorem defer_of_rolledBack (effect : Effect) {c : Context Effect} (h : c.rolledBack = true) :
    c.defer effect = c := if_pos h

theorem effects_defer (effect : Effect) {c : Context Effect} (h : c.rolledBack = false) :
    (c.defer effect).effects = c.effects ++ [effect] := by
  rw [defer, if_neg (Bool.eq_false_iff.mp h)]

end Context

end BootEngine.Transaction
