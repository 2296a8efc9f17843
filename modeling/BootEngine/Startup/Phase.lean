/-!
# Phases

The stages that every start-up goes through, one after another.

Contents:
* `Phase`: the seven phases, `Phase.all`, `Phase.number`, `Phase.name`, `Phase.text`.
-/

namespace BootEngine.Startup

/-- A stage of start-up (`BootstrapPhase`). -/
inductive Phase where
  | configuration
  | coreInfrastructure
  | featureRegistration
  | componentRegistration
  | routeRegistration
  | featureReady
  | validation
  deriving DecidableEq, Repr, Inhabited

namespace Phase

/-- All phases, in the order in which they run. -/
def all : List Phase :=
  [configuration, coreInfrastructure, featureRegistration, componentRegistration,
    routeRegistration, featureReady, validation]

/-- The place of a phase, counted from one. -/
def number (p : Phase) : Nat := all.idxOf p + 1

/-- The name of a phase. -/
def name : Phase → String
  | configuration => "Configuration"
  | coreInfrastructure => "CoreInfrastructure"
  | featureRegistration => "FeatureRegistration"
  | componentRegistration => "ComponentRegistration"
  | routeRegistration => "RouteRegistration"
  | featureReady => "FeatureReady"
  | validation => "Validation"

/-- The text of a phase: its number and its name. -/
def text (p : Phase) : String := toString p.number ++ "." ++ p.name

/-- The phase with a given name. -/
def ofName? (s : String) : Option Phase := all.find? (·.name == s)

@[simp] theorem mem_all (p : Phase) : p ∈ all := by cases p <;> decide

@[simp] theorem ofName?_name (p : Phase) : ofName? p.name = some p := by cases p <;> decide

end Phase

end BootEngine.Startup
