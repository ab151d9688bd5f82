import Bracketed.Json.Escape
import Bracketed.Json.Printer
import Bracketed.Json.Reader
import Bracketed.Snapshot

namespace Bracketed.Snapshot

/-- A text as a JSON string. -/
def jsonString (s : String) : Json.Value :=
  .string (Json.escape s.toList)

/-- Attributes as an object, in the order of their keys. -/
def attributesToJson (attributes : SortedMap String) : Json.Value :=
  .object (attributes.entries.map fun (key, value) => (Json.escape key.toList, jsonString value))

/-- A snapshot as an object with four members. -/
def toJson : Snapshot → Json.Value
  | ⟨kind, label, attributes, children⟩ =>
    .object [
      ("node_type".toList, jsonString kind),
      ("label".toList, jsonString label),
      ("attributes".toList, attributesToJson attributes),
      ("children".toList, .array (children.map toJson))]

/-- The text that a JSON value stands for, if it is a string and stands for one. -/
def textOfJson? : Json.Value → Option String
  | .string written => (Json.unescape? written).map String.ofList
  | _ => none

/-- Reads attributes. If a key occurs more than once, its last value counts. -/
def attributesOfJson? : Json.Value → Option (SortedMap String)
  | .object members => do
    let entries ← members.mapM fun (key, value) => do
      return (String.ofList (← Json.unescape? key), ← textOfJson? value)
    return SortedMap.ofList entries
  | _ => none

/-- The four members of a snapshot in an object, which must hold each of them once and may hold others; or
in an array, which must hold them in order and nothing else. -/
def fieldsOfJson? : Json.Value → Option (Json.Value × Json.Value × Json.Value × Json.Value)
  | .object members => do
    let named ← members.mapM fun (key, value) => do
      return (← Json.unescape? key, value)
    let only (name : String) : Option Json.Value :=
      match named.filter fun (key, _) => key == name.toList with
      | [(_, value)] => some value
      | _ => none
    return (← only "node_type", ← only "label", ← only "attributes", ← only "children")
  | .array [kind, label, attributes, children] => some (kind, label, attributes, children)
  | _ => none

/-- Reads a snapshot whose arrays and objects are nested at most `nesting` deep. A snapshot takes one
level for itself and one for its attributes and children. What stands in members that are not a
snapshot's own is not counted. -/
def ofJson? : Nat → Json.Value → Option Snapshot
  | nesting + 2, json => do
    let (kind, label, attributes, children) ← fieldsOfJson? json
    match children with
    | .array items =>
      return {
        kind := ← textOfJson? kind
        label := ← textOfJson? label
        attributes := ← attributesOfJson? attributes
        children := ← items.mapM (ofJson? nesting) }
    | _ => none
  | _, _ => none

/-- How deep arrays and objects may be nested in a text that is read. -/
def nestingLimit : Nat := 127

/-- Writes a snapshot as JSON over several lines, without a line break at the end. -/
def json (s : Snapshot) : String :=
  String.ofList (s.toJson.pretty 0 [])

/-- Reads a snapshot from JSON. -/
def fromJson? (text : String) : Option Snapshot := do
  ofJson? nestingLimit (← Json.read? text.toList)

end Bracketed.Snapshot
