import Bracketed.Binary64
import Bracketed.Text.Numeral

namespace Bracketed.Yaml

/-- The plain texts that are read as null. -/
def isNull (cs : List Char) : Bool :=
  let s := String.ofList cs
  s == "" || s == "~" || s == "null" || s == "Null" || s == "NULL"

/-- The plain texts that are read as a truth value. -/
def isBool (cs : List Char) : Bool :=
  let s := String.ofList cs
  s == "true" || s == "True" || s == "TRUE" || s == "false" || s == "False" || s == "FALSE"

/-- The plain texts that are read as an infinity or as no number. -/
def isSpecialFloat (cs : List Char) : Bool :=
  let isInfinity (s : String) := s == ".inf" || s == ".Inf" || s == ".INF"
  let s := String.ofList cs
  isInfinity (String.ofList (Text.splitSign cs).2) || s == ".nan" || s == ".NaN" || s == ".NAN"

/-- The plain texts that are read as an integer in another base than ten: an optional sign, the sign of
the base, and digits. The integer must fit into 128 bits, as an unsigned number or as a signed one. -/
def isBasedInteger (cs : List Char) : Bool :=
  let (negative, rest) := Text.splitSign cs
  let digits? := match rest with
    | '0' :: 'x' :: digits => Text.numeral? 16 digits
    | '0' :: 'o' :: digits => Text.numeral? 8 digits
    | '0' :: 'b' :: digits => Text.numeral? 2 digits
    | _ => none
  match digits? with
  | none => false
  | some n => if negative then n ≤ powerOfTwo 127 else n < powerOfTwo 128

/-- The plain texts that are read as a finite number in base ten. Integers of any length are among
them. -/
def isDecimal (cs : List Char) : Bool :=
  match Decimal.read? (Text.splitSign cs).2 with
  | none => false
  | some d => (Binary64.ofDecimal false d).isFinite

/-- The texts of two or more digits that begin with a zero, which not all readers take for text. -/
def hasLeadingZeros (cs : List Char) : Bool :=
  match (Text.splitSign cs).2 with
  | '0' :: c :: rest => (c :: rest).all Char.isDigit
  | _ => false

/-- Whether a text that is written plainly would be read as something else than a text. -/
def isAmbiguous (cs : List Char) : Bool :=
  isNull cs || isBool cs || isBasedInteger cs || isDecimal cs || isSpecialFloat cs || hasLeadingZeros cs

end Bracketed.Yaml
