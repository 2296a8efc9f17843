import BootEngine.Component.Kind
import BootEngine.Text.Record

/-!
# Keys and needs

A component is registered under a key, its kind with a name. What another component asks for is a
need: a kind with a name, or any component of a kind.

Contents:
* `Key`: the key, its text `kind:name` and its order.
* `Need`: the reference to a component, its text, and `Need.admits`.
-/

namespace BootEngine.Component

/-- What a component is registered under (`ComponentKey`). -/
structure Key where
  kind : Kind
  name : String
  deriving DecidableEq, Repr, Inhabited

/-- A reference to a component of a kind, by name or to any one (`DependencyRef`). -/
structure Need where
  kind : Kind
  name : Option String
  deriving DecidableEq, Repr, Inhabited

/-- The text of a request for a component of a kind: its name, or a star for any. -/
def requestText (kind : Kind) (name : Option String) : String :=
  kind.name ++ ":" ++ name.getD "*"

namespace Key

/-- The text of a key, `kind:name`. -/
def text (key : Key) : String := key.kind.name ++ ":" ++ key.name

/-- Keys are ordered by kind, then by name. -/
def compare (a b : Key) : Ordering :=
  (Ord.compare a.kind.index b.kind.index).then (Ord.compare a.name b.name)

/-- The description of a key. -/
def describe (key : Key) : String :=
  Text.record "ComponentKey" [("kind", key.kind.name), ("name", Text.quote key.name)]

end Key

namespace Need

/-- A need for the component with a given key. -/
def named (kind : Kind) (name : String) : Need := ⟨kind, some name⟩

/-- A need for any component of a kind. -/
def any (kind : Kind) : Need := ⟨kind, none⟩

/-- The text of a need, `kind:name` or `kind:*`. -/
def text (need : Need) : String := requestText need.kind need.name

/-- A component under `key` satisfies the need: the kind agrees, and the name if one is given
    (`DependencyRef.matches`). -/
def admits (need : Need) (key : Key) : Bool :=
  need.kind == key.kind && (match need.name with | none => true | some name => name == key.name)

/-- The description of a need. -/
def describe (need : Need) : String :=
  Text.record "DependencyRef"
    [("kind", need.kind.name), ("name", Text.optional (need.name.map Text.quote))]

@[simp] theorem admits_named (kind : Kind) (name : String) (key : Key) :
    (named kind name).admits key = true ↔ key = ⟨kind, name⟩ := by
  obtain ⟨k, n⟩ := key
  simp only [named, admits, Bool.and_eq_true, beq_iff_eq, Key.mk.injEq]
  exact ⟨fun h => ⟨h.1.symm, h.2.symm⟩, fun h => ⟨h.1.symm, h.2.symm⟩⟩

@[simp] theorem admits_any (kind : Kind) (key : Key) :
    (any kind).admits key = true ↔ key.kind = kind := by
  simp only [any, admits, Bool.and_true, beq_iff_eq]
  exact ⟨Eq.symm, Eq.symm⟩

end Need

end BootEngine.Component
