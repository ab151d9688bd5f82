import Bracketed.Snapshot
import Bracketed.Yaml.Scalar

namespace Bracketed.Snapshot

/-- Attributes as the value of a key that stands at the indentation `indent`. -/
def yamlAttributes (indent : Nat) (attributes : SortedMap String) : List Char :=
  match attributes.entries with
  | [] => " \x7b\x7d\n".toList
  | entries =>
    '\n' :: entries.flatMap fun (name, value) => Yaml.entry (indent + 2) name value

/-- What a snapshot says of itself, up to the key of its children, as entries of a mapping whose keys stand
at the indentation `indent`. The first key is written where the caller has come to. -/
def yamlEntries (indent : Nat) (s : Snapshot) : List Char :=
  let margin := List.replicate indent ' '
  "node_type: ".toList ++ Yaml.scalarLine indent s.kind.toList ++
    Yaml.entry indent "label" s.label ++
    margin ++ "attributes:".toList ++ yamlAttributes indent s.attributes ++
    margin ++ "children:".toList ++ (if s.children.isEmpty then " []".toList else []) ++ ['\n']

mutual

/-- A snapshot as a mapping whose keys stand at the indentation `indent`, and then the text that comes
behind it. -/
def yamlNode (indent : Nat) : Snapshot → List Char → List Char
  | ⟨kind, label, attributes, children⟩, rest =>
    yamlEntries indent ⟨kind, label, attributes, children⟩ ++ yamlItems indent children rest

/-- Snapshots as the items of a sequence, each with its dash at the indentation `indent`, and then the
text that comes behind them. -/
def yamlItems (indent : Nat) : List Snapshot → List Char → List Char
  | [], rest => rest
  | s :: others, rest =>
    List.replicate indent ' ' ++ '-' :: ' ' :: yamlNode (indent + 2) s (yamlItems indent others rest)

end

/-- Writes a snapshot as YAML. -/
def yaml (s : Snapshot) : String :=
  String.ofList (yamlNode 0 s [])

end Bracketed.Snapshot
