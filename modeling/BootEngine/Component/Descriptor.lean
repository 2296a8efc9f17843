import BootEngine.Component.Key

/-!
# Descriptors

What is known of a component before it is built: its kind, its type, the name it asks to be
registered under, what it needs, and where it was found.

Contents:
* `Origin`: a scanned namespace or a feature.
* `Descriptor`: the description, with `registeredName`, `key` and `needsItself`.
-/

namespace BootEngine.Component

/-- Where a component was found (`DescriptorOrigin`). -/
inductive Origin where
  | scanned (root : String)
  | feature (id : String)
  deriving DecidableEq, Repr, Inhabited

/-- The text of an origin. -/
def Origin.text : Origin → String
  | .scanned root => "namespace '" ++ root ++ "'"
  | .feature id => "feature '" ++ id ++ "'"

/-- A component that is not built yet (`ComponentDescriptor`). `typeName` is the short name of its
    type, and `qualifier` the name that it asks for in place of that one. -/
structure Descriptor where
  kind : Kind
  typeName : String
  qualifier : Option String
  needs : List Need
  origin : Origin
  deriving DecidableEq, Repr, Inhabited

namespace Descriptor

/-- The name that a component is registered under: its qualifier, or the name of its type
    (`ComponentDescriptor.registered_name`). -/
def registeredName (d : Descriptor) : String := d.qualifier.getD d.typeName

/-- The key that a component is registered under. -/
def key (d : Descriptor) : Key := ⟨d.kind, d.registeredName⟩

/-- A component needs itself if one of its needs names its own key
    (`ComponentDescriptor.depends_on_itself`). -/
def needsItself (d : Descriptor) : Bool :=
  d.needs.any fun need => need.kind == d.kind && need.name == some d.registeredName

theorem needsItself_iff (d : Descriptor) :
    d.needsItself = true ↔ Need.named d.kind d.registeredName ∈ d.needs := by
  simp only [needsItself, List.any_eq_true, Bool.and_eq_true, beq_iff_eq, Need.named]
  constructor
  · rintro ⟨⟨kind, name⟩, hmem, hkind, hname⟩
    simp only at hkind hname
    subst hkind hname
    exact hmem
  · exact fun h => ⟨_, h, rfl, rfl⟩

end Descriptor

end BootEngine.Component
