import Bracketed.Search.Settings
import Bracketed.Settings.KeyPath
import Bracketed.Toml.Reader

namespace Bracketed

/-- A source of settings. -/
inductive SettingsLayer where
  | toml (text : String)
  /-- A file, with its text if it is there; one that is not required may be missing. -/
  | file (path : String) (text : Option String) (required : Bool)

/-- The table of settings that a layer holds. -/
def SettingsLayer.read : SettingsLayer → Except SettingsError (List (String × Setting))
  | toml text | file _ (some text) _ =>
    match Toml.read? text with
    | none => .error .malformedText
    | some entries => .ok entries
  | file path none required => if required then .error (.missingFile path) else .ok []

/-- Search settings in the making: layers, each of which goes before those added earlier, and settings
of single keys, which go before all layers. -/
structure SearchLoader where
  layers : List SettingsLayer := []
  overrides : List (KeyPath × Setting) := []

namespace SearchLoader

/-- Adds a layer above the others. -/
def withLayer (l : SearchLoader) (layer : SettingsLayer) : SearchLoader :=
  { l with layers := l.layers ++ [layer] }

/-- Sets a single key, whatever the layers say. If a key is set more than once, the last value counts. -/
def setOverride (l : SearchLoader) (key : String) (value : Setting) : Except SettingsError SearchLoader :=
  match KeyPath.read? key with
  | none => .error .malformedKey
  | some path => .ok { l with overrides := l.overrides.filter (·.1 ≠ path) ++ [(path, value)] }

/-- Sets what a layer says. Its names are paths where they can be read as such. -/
def applyLayer (settings layer : List (String × Setting)) : List (String × Setting) :=
  layer.foldl (fun settings (name, value) =>
    let path := (KeyPath.read? name).getD { first := Text.lowercase name, rest := [] }
    Setting.set settings path value) settings

/-- The table of all settings: the defaults, then the layers in order, then the single keys. -/
def table (l : SearchLoader) : Except SettingsError (List (String × Setting)) := do
  let settings ← l.layers.foldlM (fun settings layer => do return applyLayer settings (← layer.read))
    SearchSettings.default.toTable
  return l.overrides.foldl (fun settings (path, value) => Setting.set settings path value) settings

/-- Loads the settings. -/
def build (l : SearchLoader) : Except SettingsError SearchSettings := do
  SearchSettings.ofTable (← l.table)

end SearchLoader

end Bracketed
