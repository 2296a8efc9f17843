import BootEngine.Alert
import BootEngine.Discovery.Definition

/-!
# Manifests

Definitions of components, collected under a dotted name. A scan takes the manifests whose names lie
under one of its roots, and registers what they define.

Contents:
* `isUnder`: a dotted name lies under a root.
* `Manifest`: definitions under a name.
* `scanDefinitions`, `scanManifests`: what a scan finds, with its alerts.
-/

namespace BootEngine

/-- A root without the dots at its end. -/
def trimDots (root : List Char) : List Char := (root.reverse.dropWhile (· == '.')).reverse

/-- What follows `front` in a text that begins with it. -/
def dropFront? : List Char → List Char → Option (List Char)
  | [], cs => some cs
  | _ :: _, [] => none
  | a :: front, c :: cs => if a == c then dropFront? front cs else none

/-- A dotted name lies under a root if the root is empty, or is the name, or is followed by a dot in
    the name (`ComponentManifest.is_within`). Dots at the end of a root do not count. -/
def isUnder (path root : String) : Bool :=
  let root := trimDots root.toList
  root.isEmpty ||
    (match dropFront? root path.toList with
      | none => false
      | some [] => true
      | some (c :: _) => c == '.')

/-- Definitions of components under a dotted name (`ComponentManifest`). -/
structure Manifest where
  path : String
  definitions : List Definition

/-- The description of a manifest. -/
def Manifest.describe (m : Manifest) : String :=
  Text.record "ComponentManifest"
    [("namespace", Text.quote m.path),
      ("actions", Text.listing (m.definitions.map (·.describe)))]

/-- Registers definitions that were found under a name, up to the first that cannot be registered.
    Kinds that a scan does not take are passed over with an alert. -/
def scanDefinitions (path : String) :
    List Definition → List Alert × Except DiscoveryError (List Registration)
  | [] => ([], .ok [])
  | d :: rest =>
    if d.kind.isScannable then
      match d.register (.scanned path) with
      | .error e => ([], .error e)
      | .ok registration =>
        let others := scanDefinitions path rest
        (others.1, others.2.map (registration :: ·))
    else
      let others := scanDefinitions path rest
      (.kindNotScannable path d.shortName d.kind.name :: others.1, others.2)

/-- Registers what the manifests under some of the roots define, each manifest once
    (`ManifestScanner.scan`). -/
def scanManifests (roots : List String) :
    List Manifest → List Alert × Except DiscoveryError (List Registration)
  | [] => ([], .ok [])
  | m :: rest =>
    if roots.any (isUnder m.path) then
      match scanDefinitions m.path m.definitions with
      | (alerts, .error e) => (alerts, .error e)
      | (alerts, .ok found) =>
        let others := scanManifests roots rest
        (alerts ++ others.1, others.2.map (found ++ ·))
    else scanManifests roots rest

end BootEngine
