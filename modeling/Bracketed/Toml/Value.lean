import Bracketed.Settings
import Bracketed.Toml.DateTime

namespace Bracketed.Toml

/-- A value in a document. -/
inductive Value where
  | bool (b : Bool)
  | int (n : Int)
  | float (x : Binary64)
  | text (s : String)
  /-- A date, a time, or both, in the one way in which it is written out. -/
  | dateTime (written : String)
  | array (items : List Value)
  /-- The entries in the order in which their names came up. -/
  | table (entries : List (String × Value))

namespace Value

/-- The name that marks a table as standing for a date or a time if it is the table's first name. -/
def dateTimeMark : String := "$__toml_private_datetime"

/-- The date or the time that a marked table stands for: the text under the mark is read as one, whatever
else the table holds. -/
def markedDateTime? : Value → Option Setting
  | text s => (dateTime? s.toList).map fun written => .text (String.ofList written)
  | _ => none

mutual

/-- The setting that a value stands for. Dates and times are kept as texts. There is none for a table that
is marked as a date or a time but does not hold one. -/
def setting? : Value → Option Setting
  | bool b => some (.bool b)
  | int n => some (.int n)
  | float x => some (.float x)
  | text s => some (.text s)
  | dateTime written => some (.text written)
  | array items => (itemSettings? items).map .array
  | table [] => some (.table [])
  | table ((name, v) :: rest) =>
    if name = dateTimeMark then markedDateTime? v
    else do
      let s ← setting? v
      return .table ((name, s) :: (← entrySettings? rest))

/-- The settings that the items of an array stand for. -/
def itemSettings? : List Value → Option (List Setting)
  | [] => some []
  | v :: rest => do
    let s ← setting? v
    return s :: (← itemSettings? rest)

/-- The settings that entries stand for. -/
def entrySettings? : List (String × Value) → Option (List (String × Setting))
  | [] => some []
  | (name, v) :: rest => do
    let s ← setting? v
    return (name, s) :: (← entrySettings? rest)

end

end Value

end Bracketed.Toml
