import BootEngine.Json.Document
import BootEngine.Settings.Environment
import BootEngine.Settings.Lenient
import BootEngine.Toml.Document

/-!
# Sources of a configuration

Where settings come from: configurations that have been built, files, and the environment. They are
merged in the order in which they were added. A configuration is a tree of its own, whose lists
replace those that were there; a file and the environment set what their paths name, down to single
items of lists.

Contents:
* `ConfigSource`: a source, `ConfigSource.ofValue` and `ConfigSource.ofToml`.
* `gather`: the tree of all sources.
* `Settings.load`: the settings of all sources.
-/

namespace BootEngine

/-- A source of settings; a file that is at fault gives none. -/
inductive ConfigSource where
  | built (t : Tree)
  | file (entries : List (String × Value))
  | environment (mark : String) (settings : List (String × String))
  | broken (message : String)
  deriving Repr

namespace ConfigSource

/-- A configuration built from the document of a value, which has to be a table. -/
def ofValue (v : Value) : Except String ConfigSource :=
  match Json.reread v with
  | .table entries => .ok (.built (Tree.empty.putAll entries))
  | v => .error ("invalid type: " ++ Lenient.held (Tree.ofValue v) ++ ", expected a map")

/-- A file with a text. -/
def ofToml (text : String) : ConfigSource :=
  match Toml.read text with
  | some (.table entries) => .file entries
  | _ => .broken "TOML parse error"

/-- Puts the settings of a source over a tree. -/
def putOnto (t : Tree) : ConfigSource → Except String Tree
  | built u => .ok (t.mergeEntries u.entries)
  | file entries => .ok (t.putAll entries)
  | environment mark entries =>
    .ok (entries.foldl (fun t entry => t.putVariable mark entry) t)
  | broken message => .error message

end ConfigSource

/-- The tree of sources, later ones over earlier ones. -/
def gather (sources : List ConfigSource) : Except String Tree :=
  sources.foldlM ConfigSource.putOnto Tree.empty

/-- The settings of sources. -/
def Settings.load (sources : List ConfigSource) : Except SettingsError Settings :=
  match gather sources with
  | .error message => .error (.unreadable message)
  | .ok t => Settings.ofTree t

end BootEngine
