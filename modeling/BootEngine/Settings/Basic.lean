import BootEngine.Failure
import BootEngine.Text.Blank
import BootEngine.Text.LowerCase
import BootEngine.Value

/-!
# Settings

What a configuration decides: the roots that are scanned besides those of the program, the features
that are left out, the limits in milliseconds, and a free section for each component.

Contents:
* `Settings`: the settings, `Settings.standard`.
* `Settings.validate`: settings that make no sense.
* `Settings.component?`, `Settings.isDisabled`: what components and features ask.
-/

namespace BootEngine

/-- What a configuration decides (`BootstrapSettings`). -/
structure Settings where
  roots : List String
  disabled : List String
  acquireLimit : Option Nat
  disposeLimit : Nat
  components : List (String × Value)
  deriving Repr, Inhabited

namespace Settings

/-- The settings of an empty configuration. -/
def standard : Settings := ⟨[], [], none, 5000, []⟩

/-- The settings are those of an empty configuration. -/
def isStandard (s : Settings) : Bool :=
  s.roots.isEmpty && s.disabled.isEmpty && s.acquireLimit.isNone && s.disposeLimit == 5000 &&
    s.components.isEmpty

/-- The first of the settings that makes no sense: limits of no time, and roots without a name. -/
def fault? (s : Settings) : Option SettingsError :=
  if s.disposeLimit = 0 then some (.invalid "shutdown.dispose_timeout_ms 必须大于 0")
  else if s.acquireLimit = some 0 then
    some (.invalid "transaction.acquire_timeout_ms 必须大于 0")
  else
    (s.roots.find? Text.isBlank).map fun blank =>
      .invalid ("scan.namespaces 包含空命名空间: '" ++ blank ++ "'")

/-- Settings that make sense (`BootstrapSettings.validate`). -/
def validate (s : Settings) : Except SettingsError Unit :=
  match s.fault? with
  | some e => .error e
  | none => .ok ()

/-- The section of a component: the one under its name, or else one under a name that differs in the
    case of letters only (`BootstrapSettings.component`). -/
def component? (s : Settings) (name : String) : Option Value :=
  match s.components.lookup name with
  | some v => some v
  | none => (s.components.find? fun entry => Text.sameUpToAsciiCase entry.1 name).map Prod.snd

/-- A feature is left out (`BootstrapSettings.is_feature_disabled`). -/
def isDisabled (s : Settings) (id : String) : Bool := s.disabled.contains id

end Settings

end BootEngine
