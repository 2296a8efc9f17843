import BootEngine.Alert
import BootEngine.Registry.Basic
import BootEngine.Startup.Report

/-!
# Validation

The check after everything has been registered: each component that is reported can be found again
under its key.

Contents:
* `validate`: the check; the first component that is missing ends it.
-/

namespace BootEngine.Startup

/-- Looks for every reported component, and counts them (`PostRegistrationValidator.validate`). -/
def validate (r : Registry) (reported : List Registered) :
    List Alert × Except StartupError Nat :=
  let lookup (c : Registered) : Except DependencyError Component.Instance :=
    r.get c.key.kind (some c.key.name)
  match reported.find? fun c => !(lookup c).toBool with
  | none => ([], .ok reported.length)
  | some c =>
    let error := match lookup c with
      | .ok _ => ""
      | .error e => e.message
    ([.componentMissing c.typeName c.key.text c.phase.text error],
      .error (.missingAfterRegistration c.typeName c.key.text))

end BootEngine.Startup
