import Bracketed.EvalError
import Bracketed.Format
import Bracketed.ParseError
import Bracketed.Settings.Error

namespace Bracketed

/-- Any error that the library reports. -/
inductive Error where
  | parse (e : ParseError)
  | eval (e : EvalError)
  | settings (e : SettingsError)
  | format (e : FormatError)

/-- The message of the error that is at the bottom of it. -/
def Error.message : Error → String
  | parse e => e.message
  | eval e => e.message
  | settings e => e.message
  | format e => e.message

end Bracketed
