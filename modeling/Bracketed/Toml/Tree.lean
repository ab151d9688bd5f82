import Bracketed.Toml.Value

namespace Bracketed.Toml

/-- How a table came to be, which decides what may still be added to it. -/
inductive Origin where
  /-- It has a header of its own. -/
  | explicit
  /-- A header of a table inside it was read. -/
  | header
  /-- A key with points was read. -/
  | dotted
  deriving DecidableEq

/-- A document while it is being read. -/
inductive Tree where
  | value (v : Value)
  | table (origin : Origin) (entries : List (String × Tree))
  /-- Tables with the same header in double brackets, the last one first. -/
  | tables (last : List (String × Tree)) (others : List (List (String × Tree)))

namespace Tree

abbrev Entries := List (String × Tree)

/-- Changes the entries of the table that the names lead to. A name that is not there leads to a new
table, and one of several tables to the last of them. A table on the way must be `open`, and values have
no entries. -/
def descend (origin : Origin) (isOpen : Origin → Bool) (change : Option Origin → Entries → Option Entries) :
    List String → Option Origin → Entries → Option Entries
  | [], here, entries => change here entries
  | name :: rest, _, entries => do
    let below := descend origin isOpen change rest
    match entries.lookup name with
    | none => return putEntry name (table origin (← below (some origin) [])) entries
    | some (value _) => none
    | some (table existing inner) =>
      if isOpen existing then return putEntry name (table existing (← below (some existing) inner)) entries
      else none
    | some (tables last others) => return putEntry name (tables (← below none last) others) entries

/-- Gives a new name a value. -/
def addNew (name : String) (v : Value) (entries : Entries) : Option Entries :=
  match entries.lookup name with
  | none => some (putEntry name (value v) entries)
  | some _ => none

/-- Adds what a line with a key and a value says. The last table that a key with points
leads to must have been made by such keys too, and none of those on the way by a header of its own. -/
def addValue (path : List String) (name : String) (v : Value) (entries : Entries) : Option Entries :=
  match path with
  | [] => addNew name v entries
  | _ :: _ =>
    descend .dotted (· != .explicit) (fun here entries =>
      if here = some .dotted then addNew name v entries else none) path none entries

/-- Adds all the values below one header, or before the first one. -/
def addValues (values : List (List String × String × Value)) (entries : Entries) : Option Entries :=
  values.foldlM (fun entries (path, name, v) => addValue path name v entries) entries

/-- Adds a table with a header. Only a table that came to be by the headers of tables inside it may be
there already; it gives up its place and becomes the last one. -/
def addTable (path : List String) (name : String) (values : List (List String × String × Value))
    (entries : Entries) : Option Entries :=
  descend .header (fun _ => true) (fun _ entries => do
    let before ← match entries.lookup name with
      | none => some []
      | some (table .header inner) => some inner
      | some _ => none
    return entries.filter (·.1 ≠ name) ++ [(name, table .explicit (← addValues values before))]) path none
    entries

/-- Adds a table with a header in double brackets to those that have the same header. -/
def addItem (path : List String) (name : String) (values : List (List String × String × Value))
    (entries : Entries) : Option Entries :=
  descend .header (fun _ => true) (fun _ entries => do
    let item ← addValues values []
    match entries.lookup name with
    | none => return putEntry name (tables item []) entries
    | some (tables last others) => return putEntry name (tables item (last :: others)) entries
    | some _ => none) path none entries

mutual

/-- The value that has been read. -/
def toValue : Tree → Value
  | value v => v
  | table _ entries => .table (toValues entries)
  | tables last others => .array (.table (toValues last) :: toTables others).reverse

/-- The values that have been read under their names. -/
def toValues : List (String × Tree) → List (String × Value)
  | [] => []
  | (name, t) :: rest => (name, toValue t) :: toValues rest

/-- The tables that have been read, the last one first. -/
def toTables : List (List (String × Tree)) → List Value
  | [] => []
  | entries :: rest => .table (toValues entries) :: toTables rest

end

end Tree

end Bracketed.Toml
