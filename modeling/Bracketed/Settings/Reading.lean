import Bracketed.Settings.Error
import Bracketed.Text.Lowercase

namespace Bracketed.Setting

/-- Takes a value for a truth value: numbers other than zero are true, and so are some words. A word is
looked at, and reported, in lower case. -/
def readBool (s : Setting) : Except SettingsError Bool :=
  match s with
  | bool b => .ok b
  | int n => .ok (n != 0)
  | float x => .ok !x.isZero
  | text word =>
    match Text.lowercase word with
    | "1" | "true" | "on" | "yes" => .ok true
    | "0" | "false" | "off" | "no" => .ok false
    | word => .error (.wrongType (text word).description "a boolean" "")
  | _ => .error (.wrongType s.description "a boolean" "")

/-- Takes a value for a text. Truth values and numbers are taken as they are written. -/
def readText (s : Setting) : Except SettingsError String :=
  match s with
  | bool b => .ok (toString b)
  | int n => .ok (toString n)
  | float x => .ok x.text
  | text s => .ok s
  | _ => .error (.wrongType s.description "a string" "")

/-- Takes a value for a list whose items are read with `readItem`. -/
def readList {α : Type} (readItem : Setting → Except SettingsError α) (s : Setting) :
    Except SettingsError (List α) :=
  match s with
  | array items => items.zipIdx.mapM fun (item, i) => (readItem item).mapError (.underIndex i)
  | _ => .error (.wrongShape s.description "a sequence")

/-- A value that consists of parts, which either have names or follow each other in a fixed order. -/
inductive Record where
  | named (entries : List (String × Setting))
  | ordered (typeName : String) (count : Nat) (items : List Setting)

/-- Takes a value for one of `count` parts: a table or an array. -/
def readRecord (typeName : String) (count : Nat) (s : Setting) : Except SettingsError Record :=
  match s with
  | table entries => .ok (.named entries)
  | array items => .ok (.ordered ("struct " ++ typeName) count items)
  | _ => .error (.wrongShape s.description ("struct " ++ typeName))

/-- Reads the part with a name and a place, if it is there. An array must have all parts, a table need
not. -/
def Record.part? {α : Type} (r : Record) (place : Nat) (name : String)
    (read : Setting → Except SettingsError α) : Except SettingsError (Option α) :=
  match r with
  | named entries =>
    match entries.lookup name with
    | none => .ok none
    | some s => ((read s).map some).mapError (.underName name)
  | ordered typeName count items =>
    match items[place]? with
    | none => .error (.tooShort place typeName count)
    | some s => ((read s).map some).mapError (.underIndex place)

/-- Insists on a part. -/
def demand {α : Type} (name : String) : Option α → Except SettingsError α
  | none => .error (.missingField name)
  | some a => .ok a

/-- Takes a value for one of the variants of a type, each given with its name: a text that is the name
but for capitals, or a table with the name as its only key. -/
def readVariant {α : Type} (typeName : String) (variants : List (String × α)) (s : Setting) :
    Except SettingsError α :=
  let choose (name : String) : Except SettingsError α :=
    match variants.find? fun (known, _) => Text.lowercase known == Text.lowercase name with
    | none => .error (.unknownVariant typeName name)
    | some (_, a) => .ok a
  match s with
  | text name => choose name
  | table [(name, _)] => choose name
  | _ => .error (.noVariant typeName)

end Bracketed.Setting
