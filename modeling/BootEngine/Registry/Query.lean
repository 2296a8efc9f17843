import BootEngine.Registry.Basic

/-!
# Queries

The questions that can be put to a registry, and their answers.

Contents:
* `Query`, `Answer`: questions and answers.
* `Registry.answer`: the answer to a question.
-/

namespace BootEngine

open Component (Kind Key Instance)

/-- A question to a registry. -/
inductive Query where
  | get (kind : Kind) (name : Option String)
  | describe (kind : Kind) (name : Option String)
  | typed (kind : Kind) (name : Option String) (typeName : String)
  | all (kind : Kind)
  | contains (key : Key)
  | keys
  | dataSource
  | coordinator
  deriving Repr

/-- An answer of a registry. -/
inductive Answer where
  | found (item : Instance)
  | described (text : String)
  | typed (item : Instance)
  | listed (entries : List (Key × Instance))
  | told (b : Bool)
  | keys (keys : List Key)
  | named (text : Option String)
  | failed (error : DependencyError)
  deriving Repr

/-- The answer to a question. -/
def Registry.answer (r : Registry) : Query → Answer
  | .get kind name =>
    match r.get kind name with
    | .ok item => .found item
    | .error e => .failed e
  | .describe kind name =>
    match r.get kind name with
    | .ok item => .described item.describe
    | .error e => .failed e
  | .typed kind name typeName =>
    match r.typed kind name typeName with
    | .ok item => .typed item
    | .error e => .failed e
  | .all kind => .listed (r.all kind)
  | .contains key => .told (r.contains key)
  | .keys => .keys r.keys
  | .dataSource => .named r.dataSource
  | .coordinator => .named (r.coordinator.map (·.describe))

end BootEngine
