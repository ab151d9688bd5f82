import Bracketed.Settings
import Bracketed.Text.Quoted

namespace Bracketed

/-- Why settings could not be loaded. -/
inductive SettingsError where
  /-- A layer's text does not follow the format. -/
  | malformedText
  /-- A key is not the path of a setting. -/
  | malformedKey
  /-- A layer's file is not there. -/
  | missingFile (path : String)
  /-- A value cannot be taken for one of the expected kind. The key leads to it, as far as it is known. -/
  | wrongType (found expected key : String)
  /-- A value has no parts although some are expected. -/
  | wrongShape (found expected : String)
  /-- An array has fewer items than the parts that it stands for. -/
  | tooShort (length : Nat) (expected : String) (count : Nat)
  | missingField (name : String)
  | unknownVariant (typeName name : String)
  /-- A value cannot stand for any variant. -/
  | noVariant (typeName : String)
  deriving DecidableEq

namespace SettingsError

def message : SettingsError → String
  | malformedText => "malformed settings"
  | malformedKey => "malformed key"
  | missingFile path => "configuration file \"" ++ path ++ "\" not found"
  | wrongType found expected key =>
    "invalid type: " ++ found ++ ", expected " ++ expected ++ " for key `" ++ key ++ "`"
  | wrongShape found expected => "invalid type: " ++ found ++ ", expected " ++ expected
  | tooShort length expected count =>
    "invalid length " ++ toString length ++ ", expected " ++ expected ++ " with " ++ toString count ++
      " elements"
  | missingField name => "missing field `" ++ name ++ "`"
  | unknownVariant typeName name => "enum " ++ typeName ++ " does not have variant constructor " ++ name
  | noVariant typeName =>
    "value of enum " ++ typeName ++
      " should be represented by either string or table with exactly one key"

/-- Tells that the value stands under a name. A key of several parts has points between its names, but
none around an index. -/
def underName (name : String) : SettingsError → SettingsError
  | wrongType found expected key =>
    wrongType found expected (name ++ (if key.isEmpty || key.startsWith "[" then "" else ".") ++ key)
  | e => e

/-- Tells that the value stands at a place in an array. -/
def underIndex (i : Nat) : SettingsError → SettingsError
  | wrongType found expected key => wrongType found expected ("[" ++ toString i ++ "]" ++ key)
  | e => e

end SettingsError

namespace Setting

/-- A floating point number with a point in it, even if all places behind it are zero. -/
def floatText (x : Binary64) : String :=
  let text := x.text
  if x.isFinite && !text.toList.contains '.' then text ++ ".0" else text

/-- What an error message says that it found. -/
def description : Setting → String
  | nil => "unit value"
  | bool b => "boolean `" ++ toString b ++ "`"
  | int n => "integer `" ++ toString n ++ "`"
  | float x => "floating point `" ++ floatText x ++ "`"
  | text s => "string " ++ Text.quote s
  | array _ => "sequence"
  | table _ => "map"

end Setting

end Bracketed
