import Bracketed.Text.Numeral

namespace Bracketed

/-- A number in base ten as it is written: a natural number times a power of ten. -/
structure Decimal where
  digits : Nat
  exponent : Int
  deriving DecidableEq

namespace Decimal

/-- The number that decimal digits stand for. -/
def ofDigits (digits : List Char) : Nat :=
  digits.foldl (fun n c => 10 * n + (c.toNat - '0'.toNat)) 0

/-- The unsigned exponent or the exponent with a sign, if the text is nothing else. -/
def exponent? (cs : List Char) : Option Int :=
  let (negative, digits) := Text.splitSign cs
  if digits.isEmpty || digits.any fun c => !c.isDigit then none
  else if negative then some (-(ofDigits digits : Int))
  else some (ofDigits digits)

/-- Reads an unsigned number: digits with an optional point among them or at either end of them, and an
optional exponent. -/
def read? (cs : List Char) : Option Decimal := do
  let whole := cs.takeWhile Char.isDigit
  let rest := cs.dropWhile Char.isDigit
  let (fraction, rest) := match rest with
    | '.' :: rest => (rest.takeWhile Char.isDigit, rest.dropWhile Char.isDigit)
    | rest => ([], rest)
  if whole.isEmpty && fraction.isEmpty then none
  else
    let exponent : Int ← match rest with
      | [] => some 0
      | e :: rest => if e = 'e' ∨ e = 'E' then exponent? rest else none
    return { digits := ofDigits (whole ++ fraction), exponent := exponent - fraction.length }

/-- The digits of the number without an exponent: a negative exponent puts a point among them, with a zero
before it if nothing else is. -/
def positional (d : Decimal) : String :=
  let digits := (toString d.digits).toList
  match d.exponent with
  | .ofNat zeros => String.ofList (digits ++ List.replicate zeros '0')
  | .negSucc places =>
    let width := places + 2
    let padded := List.replicate (width - digits.length) '0' ++ digits
    let whole := padded.length - (places + 1)
    String.ofList (padded.take whole ++ '.' :: padded.drop whole)

end Decimal

end Bracketed
