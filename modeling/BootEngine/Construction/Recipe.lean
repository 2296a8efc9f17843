import BootEngine.Construction.Factory

/-!
# Recipes

Factories that go through a list of steps, each of which asks for something that the component may
see. The first step that fails ends the work.

Contents:
* `RecipeStep`: a step, `RecipeStep.name`, `RecipeStep.take`.
* `follow`: goes through steps.
* `Recipe`: what is built after the steps, `Recipe.factory`.
-/

namespace BootEngine

open Component (Kind Disposer)

/-- A step of a recipe. -/
inductive RecipeStep where
  | resolve (kind : Kind) (name typeName : String)
  | resolveAny (kind : Kind) (typeName : String)
  | dataSource
  | coordinator
  | settings
  | options
  | description
  | key
  | fail (reason : String)
  /-- Takes a step whose failure ends nothing. -/
  | attempt (step : RecipeStep)
  deriving Inhabited, Repr

/-- The settings of a component that works on a table; the limit may be left out. -/
def tableOptions : Reading.Reader TableOptions :=
  Reading.record "Options"
    [("table", Reading.check Reading.text),
      ("limit", Reading.check (Reading.optional (Reading.natural 32)))] fun fields => do
    return ⟨← fields.required "table" Reading.text,
      ← fields.orElse "limit" (Reading.optional (Reading.natural 32)) none⟩

namespace RecipeStep

/-- The name of a step. -/
def name : RecipeStep → String
  | resolve .. => "resolve"
  | resolveAny .. => "resolve_any"
  | dataSource => "data_source"
  | coordinator => "transactions"
  | .settings => "config"
  | options => "options"
  | description => "descriptor"
  | key => "key"
  | fail _ => "fail"
  | attempt _ => "try"

/-- What a step comes by. -/
def take (i : Injection) : RecipeStep → Except DependencyError Finding
  | resolve kind name typeName => do return .text (← i.resolve kind name typeName).label
  | resolveAny kind typeName => do return .text (← i.resolveAny kind typeName).label
  | dataSource => do return .text (← i.dataSource)
  | coordinator => do return .text (← i.coordinator).describe
  | .settings => .ok (.settings i.settings?)
  | options => do return .options (← i.options tableOptions)
  | description => .ok (.description i.descriptor)
  | key => .ok (.text i.descriptor.key.text)
  | fail reason => .error (.creationFailed i.descriptor.typeName reason)
  | attempt step => .ok (.attempt (step.take i))

end RecipeStep

/-- Goes through steps up to the first that fails, and notes what each comes by. -/
def follow (i : Injection) :
    List RecipeStep → List (String × Finding) × Except DependencyError Unit
  | [] => ([], .ok ())
  | step :: rest =>
    match step.take i with
    | .error e => ([], .error e)
    | .ok finding =>
      let others := follow i rest
      ((step.name, finding) :: others.1, others.2)

/-- Steps, and what is built after them: an instance of a type, with its key as its label. -/
structure Recipe where
  steps : List RecipeStep
  typeName : String
  disposer : Option Disposer
  deriving Repr

/-- The factory that follows a recipe. -/
def Recipe.factory (recipe : Recipe) : Factory := fun i =>
  let followed := follow i recipe.steps
  (followed.1,
    followed.2.map fun _ => ⟨recipe.typeName, i.descriptor.key.text, recipe.disposer⟩)

end BootEngine
