import Bracketed.SourceContext
import Bracketed.Text.Quoted

namespace Bracketed

/-- Why a text could not be read as a tree. -/
inductive ParseError where
  /-- An end delimiter that does not close the group it stands in. -/
  | unbalancedEnd (delimiter : String) (index : Nat)
  /-- A group that is still open where the text ends. -/
  | unclosedGroup (delimiter : String) (index : Nat)
  /-- A token that was registered as the empty text, which would match everywhere. -/
  | emptyToken (what : String)
  deriving DecidableEq

namespace ParseError

/-- The position of the delimiter that is at fault. -/
def index : ParseError → Option Nat
  | unbalancedEnd _ index => some index
  | unclosedGroup _ index => some index
  | emptyToken _ => none

def message : ParseError → String
  | unbalancedEnd delimiter index =>
    "unbalanced end delimiter " ++ Text.quote delimiter ++ " at character " ++ toString index
  | unclosedGroup delimiter index =>
    "group opened with " ++ Text.quote delimiter ++ " at character " ++ toString index ++ " is never closed"
  | emptyToken what => "empty " ++ what ++ " token"

/-- The message and the source lines around the fault. -/
def inContext (e : ParseError) (source : String) : String :=
  withSourceContext e.message source e.index

end ParseError

end Bracketed
