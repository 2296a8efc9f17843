import BootEngine.Value
import BootEngine.Text.Quoted

/-!
# Strict reading

Typed values read from a tree without any conversion between kinds of values. A record is read from
a table by the names of its fields, or from a list by their places; entries of other names do not
count. The first fault is reported: in a table the faults of entries come first, in the order of
their keys, then the fields that are missing, in the order in which the record declares them.

Contents:
* `Reader`: a way to read; `unexpected`, `wrongType`: what was found in place of what.
* `text`, `natural`, `listOf`, `tableOf`, `optional`, `variant`: readers of plain values.
* `Fields`, `record`: readers of records.
-/

namespace BootEngine.Reading

/-- A way to read a value of a type from a tree; a failure is a message. -/
abbrev Reader (α : Type) := Value → Except String α

/-- What was found, in the words of a message. -/
def unexpected : Value → String
  | .null => "null"
  | .bool b => "boolean `" ++ (if b then "true" else "false") ++ "`"
  | .int i => "integer `" ++ toString i ++ "`"
  | .float x => "floating point `" ++ x.render Number.readerForm ++ "`"
  | .text s => "string " ++ Text.quote s
  | .list _ => "sequence"
  | .table _ => "map"

/-- The message for a value of the wrong kind. -/
def wrongType (found : Value) (expected : String) : String :=
  "invalid type: " ++ unexpected found ++ ", expected " ++ expected

/-- The message for a value of the right kind outside the range. -/
def wrongValue (found : Value) (expected : String) : String :=
  "invalid value: " ++ unexpected found ++ ", expected " ++ expected

/-! ## Plain values -/

/-- Any value as it is. -/
def anything : Reader Value := .ok

/-- A text. -/
def text : Reader String
  | .text s => .ok s
  | v => .error (wrongType v "a string")

/-- A natural number of a number of bits. -/
def natural (bits : Nat) : Reader Nat
  | .int i =>
    if Number.fitsUnsigned bits i then .ok i.toNat
    else .error (wrongValue (.int i) ("u" ++ toString bits))
  | v => .error (wrongType v ("u" ++ toString bits))

/-- A list of values of one type. -/
def listOf {α : Type} (read : Reader α) : Reader (List α)
  | .list items => items.mapM read
  | v => .error (wrongType v "a sequence")

/-- A table with entries of one type. -/
def tableOf {α : Type} (read : Reader α) : Reader (List (String × α))
  | .table entries => entries.mapM fun entry => return (entry.1, ← read entry.2)
  | v => .error (wrongType v "a map")

/-- A value, or null for none. -/
def optional {α : Type} (read : Reader α) : Reader (Option α)
  | .null => .ok none
  | v => some <$> read v

/-- One of several names. -/
def nameAmong {α : Type} (names : List String) (ofName? : String → Option α) (name : String) :
    Except String α :=
  match ofName? name with
  | some a => .ok a
  | none =>
    .error ("unknown variant `" ++ name ++ "`, expected one of " ++
      ", ".intercalate (names.map fun known => "`" ++ known ++ "`"))

/-- A value that is written as its name, or as a table whose only entry has that name and no
    content. -/
def variant {α : Type} (names : List String) (ofName? : String → Option α) : Reader α
  | .text name => nameAmong names ofName? name
  | .table [(name, content)] => do
    let a ← nameAmong names ofName? name
    match content with
    | .null => .ok a
    | content => .error (wrongType content "unit")
  | .table entries => .error (wrongValue (.table entries) "map with a single key")
  | v => .error (wrongType v "string or map")

/-! ## Records -/

/-- The fields that a record is read from, each found by its name. `absent` is the message for a
    field that is not there, if that is a fault even for a field that may be empty. -/
structure Fields where
  find? : String → Option Value
  absent : String → String
  byName : Bool

namespace Fields

/-- A field that has to be there. -/
def required {α : Type} (fields : Fields) (name : String) (read : Reader α) : Except String α :=
  match fields.find? name with
  | some v => read v
  | none => .error (fields.absent name)

/-- A field that may be empty: in a table it may also be left out. -/
def optional {α : Type} (fields : Fields) (name : String) (read : Reader α) :
    Except String (Option α) :=
  match fields.find? name with
  | some v => Reading.optional read v
  | none => if fields.byName then .ok none else .error (fields.absent name)

/-- A field that may be left out for a default. -/
def orElse {α : Type} (fields : Fields) (name : String) (read : Reader α) (default : α) :
    Except String α :=
  match fields.find? name with
  | some v => read v
  | none => .ok default

end Fields

/-- The check that a field can be read. -/
def check {α : Type} (read : Reader α) : Reader Unit := fun v => (fun _ => ()) <$> read v

/-- The message for a record that is read from a list with too few items. -/
def tooShort (name : String) (count found : Nat) : String :=
  "invalid length " ++ toString found ++ ", expected struct " ++ name ++ " with " ++
    toString count ++ (if count = 1 then " element" else " elements")

/-- Checks the entries of a table that are fields of a record, in the order of the table. -/
def checkEntries (checks : List (String × Reader Unit)) :
    List (String × Value) → Except String Unit
  | [] => .ok ()
  | (key, v) :: rest => do
    match checks.lookup key with
    | some check => check v
    | none => .ok ()
    checkEntries checks rest

/-- A record with a name and named fields, each with its check. -/
def record {α : Type} (name : String) (checks : List (String × Reader Unit))
    (build : Fields → Except String α) : Reader α
  | .table entries => do
    checkEntries checks entries
    build ⟨fun field => entries.lookup field, fun field => "missing field `" ++ field ++ "`", true⟩
  | .list items => do
    let names := checks.map Prod.fst
    let a ← build ⟨fun field => (names.zip items).lookup field,
      fun field => tooShort name names.length (names.idxOf field), false⟩
    if items.length > names.length then
      .error ("invalid length " ++ toString items.length ++ ", expected fewer elements in array")
    else .ok a
  | v => .error (wrongType v ("struct " ++ name))

end BootEngine.Reading
