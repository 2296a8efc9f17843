import BootEngine.Settings.Basic
import BootEngine.Settings.Tree
import BootEngine.Text.Digits
import BootEngine.Text.Quoted

/-!
# Lenient reading of settings

Settings read from a configuration tree. Texts, truth values and numbers are converted into one
another where that makes sense. A record is read from a table, or from a list by the places of its
fields; what is left out has its usual value.

Contents:
* `ReadFault`: why a tree cannot be read, with the path to the fault.
* `natural`, `text`, `listOf`, `optional`: readers of plain settings.
* `Settings.ofTree`: the settings of a tree.
-/

namespace BootEngine

/-- Why a tree cannot be read: a value that cannot be converted, at a path, or a tree of the wrong
    shape. -/
inductive ReadFault where
  | conversion (text path : String) (fromEnvironment : Bool)
  | shape (text : String)
  deriving DecidableEq, Repr

/-- The text of a fault. -/
def ReadFault.message : ReadFault → String
  | conversion text path fromEnvironment =>
    text ++ " for key `" ++ path ++ "`" ++
      (if fromEnvironment then " in the environment" else "")
  | shape text => text

/-- A fault seen from one step further out. A dot stands between a name and what follows it, unless
    that is a place. -/
def ReadFault.under (step : String) : ReadFault → ReadFault
  | conversion text path fromEnvironment =>
    let dot := if path.isEmpty || path.startsWith "[" then "" else "."
    conversion text (step ++ dot ++ path) fromEnvironment
  | shape text => shape text

namespace Lenient

open Number (Binary64)

/-- A way to read a setting from a tree. -/
abbrev Reader (α : Type) := Tree → Except ReadFault α

/-- What a tree holds, in the words for a failed conversion. -/
def held : Tree → String
  | .leaf .null _ => "unit value"
  | .leaf (.bool b) _ => "boolean `" ++ (if b then "true" else "false") ++ "`"
  | .leaf (.int i) _ => "64-bit integer `" ++ toString i ++ "`"
  | .leaf (.float x) _ => "floating point `" ++ x.render Number.plainForm ++ "`"
  | .leaf (.text s) _ => "string " ++ Text.quote s
  | .leaf _ _ => "unit value"
  | .list _ => "sequence"
  | .table _ => "map"

/-- What a tree holds, in the words for a wrong shape. -/
def shapeOf : Tree → String
  | .leaf (.int i) _ => "integer `" ++ toString i ++ "`"
  | .leaf (.float x) _ => "floating point `" ++ x.render Number.pointedForm ++ "`"
  | t => held t

/-- A leaf that comes from the environment. -/
def isForeign : Tree → Bool
  | .leaf _ fromEnvironment => fromEnvironment
  | _ => false

/-- The failure to convert a tree. -/
def cannotConvert {α : Type} (t : Tree) (expected : String) : Except ReadFault α :=
  .error (.conversion ("invalid type: " ++ held t ++ ", expected " ++ expected) "" (isForeign t))

/-- The failure for a tree of the wrong shape. -/
def wrongShape {α : Type} (t : Tree) (expected : String) : Except ReadFault α :=
  .error (.shape ("invalid type: " ++ shapeOf t ++ ", expected " ++ expected))

/-! ## Plain settings -/

/-- The greatest natural number of 64 bits. -/
def greatest : Nat := Number.wordCount 64 - 1

/-- The natural number of 64 bits that a text spells, with or without a plus in front. -/
def spelled? (s : String) : Option Nat :=
  let digits := match s.toList with
    | '+' :: rest => rest
    | cs => cs
  if digits.isEmpty || !digits.all Char.isDigit then none
  else
    let n := Text.decimal digits
    if n ≤ greatest then some n else none

/-- A natural number of 64 bits. Words of agreement are one, words of refusal are zero, and a double
    goes to the nearest number in range. -/
def natural : Reader Nat
  | .leaf (.int i) foreign =>
    if 0 ≤ i then .ok i.toNat
    else cannotConvert (.leaf (.int i) foreign) "an unsigned 64 bit or less integer"
  | .leaf (.text s) foreign =>
    let word := Text.lowerCase s
    if ["true", "on", "yes"].contains word then .ok 1
    else if ["false", "off", "no"].contains word then .ok 0
    else
      match spelled? s with
      | some n => .ok n
      | none => cannotConvert (.leaf (.text s) foreign) "an integer"
  | .leaf (.bool b) _ => .ok (if b then 1 else 0)
  | .leaf (.float x) _ => .ok (x.toNatRounded greatest)
  | t => cannotConvert t "an integer"

/-- A text, or the text of a number or a truth value. -/
def text : Reader String
  | .leaf (.text s) _ => .ok s
  | .leaf (.int i) _ => .ok (toString i)
  | .leaf (.bool b) _ => .ok (if b then "true" else "false")
  | .leaf (.float x) _ => .ok (x.render Number.plainForm)
  | t => cannotConvert t "a string"

/-- A setting, or null for none. -/
def optional {α : Type} (read : Reader α) : Reader (Option α)
  | .leaf .null _ => .ok none
  | t => some <$> read t

/-- The items of a list from a place on. -/
def itemsFrom {α : Type} (read : Reader α) : Nat → List Tree → Except ReadFault (List α)
  | _, [] => .ok []
  | place, t :: rest =>
    match read t with
    | .error fault => .error (fault.under ("[" ++ toString place ++ "]"))
    | .ok a => (itemsFrom read (place + 1) rest).map (a :: ·)

/-- A list of settings. -/
def listOf {α : Type} (read : Reader α) : Reader (List α)
  | .list items => itemsFrom read 0 items
  | t => wrongShape t "a sequence"

/-! ## Records -/

/-- A record with one field that has a default. -/
def single {α : Type} (name field : String) (read : Reader α) (default : α) : Reader α
  | .table entries =>
    match Table.get? entries field with
    | some t => (read t).mapError (·.under field)
    | none => .ok default
  | .list (t :: _) => (read t).mapError (·.under "[0]")
  | .list [] => .ok default
  | t => wrongShape t ("struct " ++ name)

/-- A part of the settings, under its name. -/
def part {α : Type} (t : Tree) (name : String) (read : Reader α) (default : α) :
    Except ReadFault α :=
  match Table.get? t.entries name with
  | some t => (read t).mapError (·.under name)
  | none => .ok default

/-- The sections of components. -/
def sections : Reader (List (String × Value))
  | .table entries => .ok (Tree.toEntries entries)
  | t => wrongShape t "a map"

end Lenient

namespace Settings

open Lenient

/-- Reads the settings of a tree. -/
def readTree (t : Tree) : Except ReadFault Settings := do
  return {
    roots := ← part t "scan" (single "ScanSettings" "namespaces" (listOf text) []) []
    disabled := ← part t "features" (single "FeatureSettings" "disabled" (listOf text) []) []
    acquireLimit :=
      ← part t "transaction"
        (single "TransactionSettings" "acquire_timeout_ms" (optional natural) none) none
    disposeLimit :=
      ← part t "shutdown"
        (single "ShutdownSettings" "dispose_timeout_ms" natural standard.disposeLimit)
        standard.disposeLimit
    components := ← part t "components" sections [] }

/-- The settings of a tree, if they can be read and make sense (`BootstrapSettings.from_config`). -/
def ofTree (t : Tree) : Except SettingsError Settings :=
  match readTree t with
  | .error fault => .error (.unreadable fault.message)
  | .ok settings =>
    match settings.validate with
    | .error e => .error e
    | .ok () => .ok settings

end Settings

end BootEngine
