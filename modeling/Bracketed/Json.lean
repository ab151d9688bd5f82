namespace Bracketed.Json

/-- A JSON value as it is written. Numbers and strings are kept as they are written, strings without the
quotes, because not every string that is written correctly stands for a text. -/
inductive Value where
  | null
  | bool (b : Bool)
  | number (written : List Char)
  | string (written : List Char)
  | array (items : List Value)
  /-- The members in the order in which they are written; a key may occur more than once. -/
  | object (members : List (List Char × Value))

end Bracketed.Json
