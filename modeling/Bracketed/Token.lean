import Bracketed.Grouping

namespace Bracketed

/-- One step of reading a text: a delimiter, an operator, or a single character of a value. -/
inductive Token where
  /-- The start delimiter of a grouping, which opens a group. -/
  | opening (grouping : Grouping)
  /-- The end delimiter of the innermost open group, which closes it. -/
  | closing (grouping : Grouping)
  /-- An operator, by its place in the list of registered operators. -/
  | operator (index : Nat) (text : String)
  /-- A character that begins no delimiter and no operator. -/
  | char (c : Char)
  deriving DecidableEq

namespace Token

/-- The characters of the source that the token was read from. -/
def text : Token → List Char
  | opening g => g.opening.toList
  | closing g => g.closing.toList
  | operator _ text => text.toList
  | char c => [c]

def length (t : Token) : Nat :=
  t.text.length

end Token

end Bracketed
