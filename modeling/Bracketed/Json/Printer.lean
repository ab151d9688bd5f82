import Bracketed.Json

namespace Bracketed.Json.Value

/-- A line break, followed by two blanks for each level of nesting. -/
def lineBreak (level : Nat) : List Char :=
  '\n' :: List.replicate (2 * level) ' '

mutual

/-- A value spread over lines, and then the text that comes behind it: each item of an array and each
member of an object stands on a line of its own, one level deeper than the brackets around it. Nothing
stands between the brackets of an empty one. -/
def pretty (level : Nat) : Value → List Char → List Char
  | null, rest => 'n' :: 'u' :: 'l' :: 'l' :: rest
  | bool true, rest => 't' :: 'r' :: 'u' :: 'e' :: rest
  | bool false, rest => 'f' :: 'a' :: 'l' :: 's' :: 'e' :: rest
  | number written, rest => written ++ rest
  | string written, rest => '"' :: (written ++ '"' :: rest)
  | array [], rest => '[' :: ']' :: rest
  | array (item :: items), rest =>
    '[' :: (lineBreak (level + 1) ++
      pretty (level + 1) item (prettyItems (level + 1) items (lineBreak level ++ ']' :: rest)))
  | object [], rest => '\x7b' :: '\x7d' :: rest
  | object ((key, value) :: members), rest =>
    '\x7b' :: (lineBreak (level + 1) ++ '"' :: (key ++ '"' :: ':' :: ' ' ::
      pretty (level + 1) value (prettyMembers (level + 1) members (lineBreak level ++ '\x7d' :: rest))))

/-- The items after the first one, each after a comma, and then the text that comes behind them. -/
def prettyItems (level : Nat) : List Value → List Char → List Char
  | [], rest => rest
  | item :: items, rest =>
    ',' :: (lineBreak level ++ pretty level item (prettyItems level items rest))

/-- The members after the first one, each after a comma, and then the text that comes behind them. -/
def prettyMembers (level : Nat) : List (List Char × Value) → List Char → List Char
  | [], rest => rest
  | (key, value) :: members, rest =>
    ',' :: (lineBreak level ++ '"' :: (key ++ '"' :: ':' :: ' ' ::
      pretty level value (prettyMembers level members rest)))

end

end Bracketed.Json.Value
