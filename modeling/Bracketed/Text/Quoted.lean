import Bracketed.Text.DefaultIgnorable
import Bracketed.Text.GraphemeExtend
import Bracketed.Text.Printable

namespace Bracketed.Text

/-- The lower-case hexadecimal digits of a number, without leading zeros. -/
def hexDigits (n : Nat) : List Char :=
  Nat.toDigits 16 n

/-- One character as it stands in a quoted text. A quote and a backslash are escaped, and so is
whatever a reader could not see or would see as part of the character before it. -/
def quoteChar (c : Char) : List Char :=
  if c = '"' then ['\\', '"']
  else if c = '\\' then ['\\', '\\']
  else if c = '\n' then ['\\', 'n']
  else if c = '\r' then ['\\', 'r']
  else if c = '\t' then ['\\', 't']
  else if c = '\x00' then ['\\', '0']
  else if isPrintable c && !isGraphemeExtend c && !isDefaultIgnorable c then [c]
  else "\\u\x7b".toList ++ hexDigits c.toNat ++ ['\x7d']

/-- A text in double quotes, with every character in it visible. -/
def quote (s : String) : String :=
  String.ofList ('"' :: s.toList.flatMap quoteChar ++ ['"'])

end Bracketed.Text
