import Bracketed.Format
import Bracketed.Snapshot.Drawing
import Bracketed.Snapshot.Json
import Bracketed.Snapshot.Yaml

namespace Bracketed

namespace Formatter

/-- Draws a tree with branches and signs. -/
def treeviz : Formatter where
  name := "treeviz"
  description := "Visual tree representation with indentation and Unicode icons"
  serialize s := .ok s.drawing

def json : Formatter where
  name := "json"
  description := "Snapshot of the tree as pretty-printed JSON"
  serialize s := .ok s.json

def yaml : Formatter where
  name := "yaml"
  description := "Snapshot of the tree as YAML"
  serialize s := .ok s.yaml

/-- The formats that every caller has. -/
def builtin : List Formatter :=
  [treeviz, json, yaml]

end Formatter

/-- The formats that a caller can choose from, by their names. -/
structure FormatRegistry where
  formatters : SortedMap Formatter

namespace FormatRegistry

/-- The registry without formats. -/
def empty : FormatRegistry := ⟨∅⟩

/-- Adds a format, in place of the one that has had its name so far. -/
def register (r : FormatRegistry) (f : Formatter) : FormatRegistry :=
  ⟨r.formatters.insert f.name f⟩

/-- The registry with the formats that every caller has. -/
def defaults : FormatRegistry :=
  Formatter.builtin.foldl register empty

instance : Inhabited FormatRegistry := ⟨defaults⟩

def get? (r : FormatRegistry) (name : String) : Option Formatter :=
  r.formatters.get? name

def has (r : FormatRegistry) (name : String) : Bool :=
  r.formatters.contains name

/-- The names of all formats in ascending order. -/
def names (r : FormatRegistry) : List String :=
  r.formatters.keys

/-- Writes a snapshot in the format of this name. -/
def serializeSnapshot (r : FormatRegistry) (s : Snapshot) (name : String) : Except FormatError String :=
  match r.get? name with
  | none => .error (.formatNotFound name)
  | some f => f.serialize s

/-- Writes an expression's tree in the format of this name. -/
def serialize {T : Type} (r : FormatRegistry) (e : Expression T) (name : String) :
    Except FormatError String :=
  r.serializeSnapshot e.snapshot name

@[simp] theorem get?_register_self (r : FormatRegistry) (f : Formatter) :
    (r.register f).get? f.name = some f :=
  SortedMap.get?_insert_self r.formatters f.name f

theorem get?_register_of_ne {name : String} (r : FormatRegistry) {f : Formatter} (h : name ≠ f.name) :
    (r.register f).get? name = r.get? name :=
  SortedMap.get?_insert_of_ne h r.formatters f

end FormatRegistry

end Bracketed
