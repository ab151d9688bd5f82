import Bracketed.Snapshot

namespace Bracketed

/-- Why a tree could not be written in a format. -/
inductive FormatError where
  | formatNotFound (name : String)
  | serializationError (reason : String)
  deriving DecidableEq

def FormatError.message : FormatError → String
  | formatNotFound name => "Format '" ++ name ++ "' not found"
  | serializationError reason => "Serialization error: " ++ reason

/-- A way to write trees, under the name by which callers choose it. -/
structure Formatter where
  name : String
  description : String := ""
  serialize : Snapshot → Except FormatError String

end Bracketed
