import Bracketed.Settings
import Bracketed.Text.Lowercase

namespace Bracketed.Setting

mutual

/-- What a setting becomes when a layer sets it to the first value. A table is merged into what is
there, and every other value takes its place. -/
def mergedInto (existing : Option Setting) : Setting → Setting
  | table entries => mergeEntries (existing.getD (table [])) entries
  | nil => nil
  | bool b => bool b
  | int n => int n
  | float x => float x
  | text s => text s
  | array items => array items

/-- What a setting becomes when entries are merged into it one by one, each under its name in lower
case. What is not a table becomes one with the first entry. -/
def mergeEntries (existing : Setting) : List (String × Setting) → Setting
  | [] => existing
  | (name, value) :: rest =>
    let key := Text.lowercase name
    let merged := mergedInto (existing.entries.lookup key) value
    mergeEntries (table (putEntry key merged existing.entries)) rest

end

end Bracketed.Setting
