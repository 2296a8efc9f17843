import BootEngine.Reading.Strict
import BootEngine.Settings.Basic

/-!
# Strict reading of settings

Settings read from a value without any conversion. Whatever is left out has its usual value.

Contents:
* `settings`: the reader.
-/

namespace BootEngine.Reading

/-- The part of the settings about scans: further roots. -/
def scanPart : Reader (List String) :=
  record "ScanSettings" [("namespaces", check (listOf text))] fun fields =>
    fields.orElse "namespaces" (listOf text) []

/-- The part of the settings about features: those that are left out. -/
def featurePart : Reader (List String) :=
  record "FeatureSettings" [("disabled", check (listOf text))] fun fields =>
    fields.orElse "disabled" (listOf text) []

/-- The part of the settings about transactions: how long a scope waits for one. -/
def transactionPart : Reader (Option Nat) :=
  record "TransactionSettings" [("acquire_timeout_ms", check (optional (natural 64)))]
    fun fields => fields.orElse "acquire_timeout_ms" (optional (natural 64)) none

/-- The part of the settings about stopping: how long a component may take to give back what it
    holds. -/
def shutdownPart : Reader Nat :=
  record "ShutdownSettings" [("dispose_timeout_ms", check (natural 64))] fun fields =>
    fields.orElse "dispose_timeout_ms" (natural 64) Settings.standard.disposeLimit

/-- Settings. -/
def settings : Reader Settings :=
  record "BootstrapSettings"
    [("scan", check scanPart), ("features", check featurePart),
      ("transaction", check transactionPart), ("shutdown", check shutdownPart),
      ("components", check (tableOf anything))] fun fields => do
      return {
        roots := ← fields.orElse "scan" scanPart []
        disabled := ← fields.orElse "features" featurePart []
        acquireLimit := ← fields.orElse "transaction" transactionPart none
        disposeLimit := ← fields.orElse "shutdown" shutdownPart Settings.standard.disposeLimit
        components := ← fields.orElse "components" (tableOf anything) [] }

end BootEngine.Reading
