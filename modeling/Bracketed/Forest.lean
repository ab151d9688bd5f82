import Bracketed.Grouping
import Bracketed.Span

namespace Bracketed

/-- A run of text between tokens, without the blanks at its ends. -/
structure Value where
  text : String
  /-- The length of the run with the blanks at its ends. -/
  rawLength : Nat
  /-- Where the text stands, without those blanks. -/
  span : Span
  deriving DecidableEq

/-- One occurrence of a registered operator. -/
structure OperatorUse where
  /-- The operator's place in the list of registered operators. -/
  operator : Nat
  span : Span
  deriving DecidableEq

/-- The delimiters of one group in the source. -/
structure Enclosure where
  grouping : Grouping
  /-- From the start of the start delimiter to the end of the end delimiter. -/
  span : Span
  /-- How many blanks stand directly inside the group without belonging to a value. -/
  padding : Nat
  deriving DecidableEq

/-- The sibling nodes of a tree in source order, each with the siblings to its right. Only groups have
children. -/
inductive Forest where
  | nil
  | value (v : Value) (rest : Forest)
  | operator (o : OperatorUse) (rest : Forest)
  | group (e : Enclosure) (content : Forest) (rest : Forest)
  deriving DecidableEq

namespace Forest

/-- The number of nodes at all depths. -/
def size : Forest → Nat
  | nil => 0
  | value _ rest => 1 + rest.size
  | operator _ rest => 1 + rest.size
  | group _ content rest => 1 + content.size + rest.size

/-- The number of siblings at the top. -/
def width : Forest → Nat
  | nil => 0
  | value _ rest => 1 + rest.width
  | operator _ rest => 1 + rest.width
  | group _ _ rest => 1 + rest.width

end Forest

end Bracketed
