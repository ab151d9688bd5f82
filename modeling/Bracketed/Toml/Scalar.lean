import Bracketed.Text.Numeral
import Bracketed.Toml.Value

namespace Bracketed.Toml

/-- The digits in a text that is nothing but digits with single underscores between them. -/
def digits? (isDigit : Char → Bool) : List Char → Option (List Char)
  | [] => none
  | [c] => if isDigit c then some [c] else none
  | c :: '_' :: rest => if isDigit c then (digits? isDigit rest).map (c :: ·) else none
  | c :: rest => if isDigit c then (digits? isDigit rest).map (c :: ·) else none

/-- The digits of a number that does not begin with a zero unless it is zero. -/
def decimalDigits? (cs : List Char) : Option (List Char) := do
  let digits ← digits? Char.isDigit cs
  match digits with
  | '0' :: _ :: _ => none
  | _ => some digits

/-- An integer behind the sign of its base. -/
def basedInteger? (base : Nat) (cs : List Char) : Option Int := do
  return (← Text.numeral? base (← digits? (Text.isDigitOf base) cs) : Nat)

/-- Reads an integer, which must fit into 64 bits. Only decimal ones may have a sign. -/
def integer? (cs : List Char) : Option Int := do
  let n ← match cs with
    | '0' :: 'x' :: rest => basedInteger? 16 rest
    | '0' :: 'o' :: rest => basedInteger? 8 rest
    | '0' :: 'b' :: rest => basedInteger? 2 rest
    | _ => do
      let (negative, rest) := Text.splitSign cs
      let n : Int := Decimal.ofDigits (← decimalDigits? rest)
      some (if negative then -n else n)
  if -(powerOfTwo 63 : Int) ≤ n ∧ n < powerOfTwo 63 then some n else none

/-- Reads a number with a fraction or an exponent, or the name of an infinity or of no number. A
positive number must not be too large. -/
def float? (cs : List Char) : Option Binary64 := do
  let (negative, rest) := Text.splitSign cs
  if rest = ['i', 'n', 'f'] then return .infinite negative
  if rest = ['n', 'a', 'n'] then return .nan
  let isMark (c : Char) := c == '.' || c == 'e' || c == 'E'
  let isExponentMark (c : Char) := c == 'e' || c == 'E'
  let whole ← decimalDigits? (rest.takeWhile fun c => !isMark c)
  let rest := rest.dropWhile fun c => !isMark c
  let (fraction, rest) ← match rest with
    | '.' :: rest => do
      let fraction ← digits? Char.isDigit (rest.takeWhile fun c => !isExponentMark c)
      some (fraction, rest.dropWhile fun c => !isExponentMark c)
    | [] => none
    | rest => some ([], rest)
  let exponent : Int ← match rest with
    | [] => some 0
    | _ :: rest => do
      let (negative, rest) := Text.splitSign rest
      let n : Int := Decimal.ofDigits (← digits? Char.isDigit rest)
      some (if negative then -n else n)
  let decimal : Decimal :=
    { digits := Decimal.ofDigits (whole ++ fraction), exponent := exponent - fraction.length }
  match Binary64.ofDecimal negative decimal with
  | .infinite false => none
  | x => some x

/-- The value of a text without quotes and brackets. -/
def bare? (cs : List Char) : Option Value :=
  if cs = "true".toList then some (.bool true)
  else if cs = "false".toList then some (.bool false)
  else
    match dateTime? cs with
    | some written => some (.dateTime (String.ofList written))
    | none =>
      match float? cs with
      | some x => some (.float x)
      | none => (integer? cs).map .int

end Bracketed.Toml
