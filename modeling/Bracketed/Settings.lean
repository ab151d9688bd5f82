import Bracketed.Binary64

namespace Bracketed

/-- The value of a setting before it is known what it is for. -/
inductive Setting where
  | nil
  | bool (b : Bool)
  | int (n : Int)
  | float (x : Binary64)
  | text (s : String)
  | array (items : List Setting)
  /-- Settings under their names, each name at most once. -/
  | table (entries : List (String × Setting))
  deriving Inhabited

namespace Setting

/-- The entries of a table; no other value has any. -/
def entries : Setting → List (String × Setting)
  | table entries => entries
  | _ => []

/-- The items of an array; no other value has any. -/
def items : Setting → List Setting
  | array items => items
  | _ => []

end Setting

/-- Gives a name in a table a value, in place of the value it has had so far. -/
def putEntry {α : Type} (name : String) (value : α) : List (String × α) → List (String × α)
  | [] => [(name, value)]
  | (k, v) :: rest => if k = name then (k, value) :: rest else (k, v) :: putEntry name value rest

theorem lookup_putEntry_self {α : Type} (name : String) (value : α) (entries : List (String × α)) :
    (putEntry name value entries).lookup name = some value := by
  fun_induction putEntry name value entries <;> grind

theorem lookup_putEntry_of_ne {α : Type} {name other : String} (h : other ≠ name) (value : α)
    (entries : List (String × α)) : (putEntry name value entries).lookup other = entries.lookup other := by
  fun_induction putEntry name value entries <;> grind

end Bracketed
