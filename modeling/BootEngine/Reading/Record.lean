import BootEngine.Component.Key
import BootEngine.Reading.Strict
import BootEngine.Startup.Report
import BootEngine.Startup.Status

/-!
# Reading the records of this library

Contents:
* `kind`, `key`, `need`: components and references to them.
* `phase`, `status`: the stages of an application.
* `span`, `moment`: times.
* `registered`, `timing`, `report`: reports of a start-up.
-/

namespace BootEngine.Reading

open Component (Kind Key Need)
open Startup (Phase Status Registered Timing Report)
open Time (Span Moment)

/-- A kind, by its name. -/
def kind : Reader Kind := variant (Kind.all.map Kind.name) Kind.ofName?

/-- A phase, by its name. -/
def phase : Reader Phase := variant (Phase.all.map Phase.name) Phase.ofName?

/-- A status, by its name. -/
def status : Reader Status := variant (Status.all.map Status.name) Status.ofName?

/-- A key. -/
def key : Reader Key :=
  record "ComponentKey" [("kind", check kind), ("name", check text)] fun fields => do
    return ⟨← fields.required "kind" kind, ← fields.required "name" text⟩

/-- A need; without a name it asks for any component of the kind. -/
def need : Reader Need :=
  record "DependencyRef" [("kind", check kind), ("name", check (optional text))] fun fields => do
    return ⟨← fields.required "kind" kind, ← fields.optional "name" text⟩

/-! ## Times -/

/-- Seconds and nanoseconds; those beyond a second are carried, if the seconds still fit. -/
def carried (seconds nanos : Nat) : Except String Span :=
  let span := Span.normal seconds nanos
  if Number.fitsUnsigned 64 span.seconds then .ok span else .error "overflow deserializing Duration"

/-- The entries of a span of time: no others than the two known ones may stand in it. -/
def spanEntries : List (String × Value) → Except String Unit
  | [] => .ok ()
  | (name, v) :: rest => do
    if name == "secs" then check (natural 64) v
    else if name == "nanos" then check (natural 32) v
    else .error ("unknown field `" ++ name ++ "`, expected `secs` or `nanos`")
    spanEntries rest

/-- A span of time. -/
def span : Reader Span
  | .table entries => do
    spanEntries entries
    let fields : Fields :=
      ⟨fun name => entries.lookup name, fun name => "missing field `" ++ name ++ "`", true⟩
    carried (← fields.required "secs" (natural 64)) (← fields.required "nanos" (natural 32))
  | .list [] => .error "invalid length 0, expected struct Duration"
  | .list [seconds] => do
    check (natural 64) seconds
    .error "invalid length 1, expected struct Duration"
  | .list (seconds :: nanos :: rest) => do
    let found ← carried (← natural 64 seconds) (← natural 32 nanos)
    if rest.isEmpty then .ok found
    else
      .error ("invalid length " ++ toString (rest.length + 2) ++
        ", expected fewer elements in array")
  | v => .error (wrongType v "struct Duration")

/-- A moment, in its written form. -/
def moment : Reader Moment
  | .text s => Moment.read s
  | v => .error (wrongType v "an RFC 3339 formatted date and time string")

/-! ## Reports -/

/-- A registered component. -/
def registered : Reader Registered :=
  record "RegisteredComponent"
    [("key", check key), ("type_name", check text), ("phase", check phase)] fun fields => do
      return ⟨← fields.required "key" key, ← fields.required "type_name" text,
        ← fields.required "phase" phase⟩

/-- The time of a phase. -/
def timing : Reader Timing :=
  record "PhaseTiming" [("phase", check phase), ("elapsed", check span)] fun fields => do
    return ⟨← fields.required "phase" phase, ← fields.required "elapsed" span⟩

/-- A report. -/
def report : Reader Report :=
  record "BootstrapReport"
    [("started_at", check moment), ("completed_at", check (optional moment)),
      ("phases", check (listOf timing)), ("components", check (listOf registered)),
      ("features_ready", check (listOf text))] fun fields => do
      return ⟨← fields.required "started_at" moment, ← fields.optional "completed_at" moment,
        ← fields.required "phases" (listOf timing),
        ← fields.required "components" (listOf registered),
        ← fields.required "features_ready" (listOf text)⟩

end BootEngine.Reading
