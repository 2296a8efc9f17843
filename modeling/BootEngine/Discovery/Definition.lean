import BootEngine.Construction.Factory
import BootEngine.Component.TypeName

/-!
# Definitions

What a manifest or a feature says about a component. A definition can be registered if it comes with
a factory and does not need itself.

Contents:
* `Definition`: the definition, `Definition.describe`.
* `Registration`: a description with a factory.
* `Definition.register`: the registration of a definition, or why there is none.
-/

namespace BootEngine

open Component (Kind Need Descriptor Origin)

/-- What is said about a component (`ComponentDefinition`); `typeName` is the full name of its
    type. -/
structure Definition where
  kind : Kind
  typeName : String
  qualifier : Option String
  needs : List Need
  factory : Option Factory

/-- The description of a component with the way to build it (`ComponentRegistration`). -/
structure Registration where
  descriptor : Descriptor
  factory : Factory

namespace Definition

/-- The short name of the type. -/
def shortName (d : Definition) : String := Component.shortName d.typeName

/-- The description of a definition. -/
def describe (d : Definition) : String :=
  Text.record "RegistrationAction"
    [("kind", d.kind.name), ("type", Text.quote d.shortName),
      ("qualifier", Text.optional (d.qualifier.map Text.quote)),
      ("dependencies", Text.listing (d.needs.map (·.describe))),
      ("has_factory", Text.flag d.factory.isSome)]

/-- The description of the component, given where it was found. -/
def descriptor (d : Definition) (origin : Origin) : Descriptor :=
  ⟨d.kind, d.shortName, d.qualifier, d.needs, origin⟩

/-- The registration of a definition (`RegistrationAction.to_registration`). A missing factory is
    reported before a need of itself. -/
def register (d : Definition) (origin : Origin) : Except DiscoveryError Registration :=
  match d.factory with
  | none => .error ⟨d.shortName, origin.text ++ " 没有提供工厂，无法实例化"⟩
  | some factory =>
    let descriptor := d.descriptor origin
    if descriptor.needsItself then
      .error ⟨d.shortName, descriptor.key.text ++ " 不能依赖自身"⟩
    else .ok ⟨descriptor, factory⟩

end Definition

end BootEngine
