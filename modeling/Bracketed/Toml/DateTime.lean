import Bracketed.Decimal

namespace Bracketed.Toml

/-- The number of two digits, if it is at most `limit`. -/
def twoDigits? (limit : Nat) (a b : Char) : Option Nat :=
  if a.isDigit && b.isDigit then
    let n := Decimal.ofDigits [a, b]
    if n ≤ limit then some n else none
  else none

/-- The number of days of a month. -/
def daysOf (year month : Nat) : Nat :=
  if month = 2 then
    if year % 4 = 0 ∧ (year % 100 ≠ 0 ∨ year % 400 = 0) then 29 else 28
  else if month = 4 ∨ month = 6 ∨ month = 9 ∨ month = 11 then 30
  else 31

/-- Reads a date, which must be one of the calendar, and returns it with the text behind it. -/
def takeDate? : List Char → Option (List Char × List Char)
  | y₁ :: y₂ :: y₃ :: y₄ :: '-' :: m₁ :: m₂ :: '-' :: d₁ :: d₂ :: rest => do
    if !([y₁, y₂, y₃, y₄].all Char.isDigit) then none
    else
      let month ← twoDigits? 12 m₁ m₂
      let day ← twoDigits? 31 d₁ d₂
      if month = 0 ∨ day = 0 ∨ daysOf (Decimal.ofDigits [y₁, y₂, y₃, y₄]) month < day then none
      else some ([y₁, y₂, y₃, y₄, '-', m₁, m₂, '-', d₁, d₂], rest)
  | _ => none

/-- Reads a time, and returns it with the text behind it. Of the fraction of the second nine places count,
and zeros at its end are left out. -/
def takeTime? : List Char → Option (List Char × List Char)
  | h₁ :: h₂ :: ':' :: m₁ :: m₂ :: ':' :: s₁ :: s₂ :: rest => do
    let _ ← twoDigits? 23 h₁ h₂
    let _ ← twoDigits? 59 m₁ m₂
    let _ ← twoDigits? 60 s₁ s₂
    let time := [h₁, h₂, ':', m₁, m₂, ':', s₁, s₂]
    match rest with
    | '.' :: rest =>
      let places := rest.takeWhile Char.isDigit
      if places.isEmpty then none
      else
        let kept := ((places.take 9).reverse.dropWhile (· == '0')).reverse
        let fraction := if kept.isEmpty then [] else '.' :: kept
        some (time ++ fraction, rest.dropWhile Char.isDigit)
    | rest => some (time, rest)
  | _ => none

/-- Reads what a time is ahead of the standard time: nothing, a `Z`, or hours and minutes. No offset has
the sign of minus zero. -/
def offset? : List Char → Option (List Char)
  | [] => some []
  | ['Z'] => some ['Z']
  | ['z'] => some ['Z']
  | [sign, h₁, h₂, ':', m₁, m₂] => do
    let hours ← twoDigits? 23 h₁ h₂
    let minutes ← twoDigits? 59 m₁ m₂
    let text := [h₁, h₂, ':', m₁, m₂]
    if sign = '+' ∨ (sign = '-' ∧ hours = 0 ∧ minutes = 0) then some ('+' :: text)
    else if sign = '-' then some ('-' :: text)
    else none
  | _ => none

/-- Reads a date, a time, or both with an optional offset. Its text is the same however its parts are set
off from each other. -/
def dateTime? (cs : List Char) : Option (List Char) :=
  match takeDate? cs with
  | some (date, []) => some date
  | some (date, mark :: rest) => do
    if mark = 'T' ∨ mark = 't' ∨ mark = ' ' then
      let (time, rest) ← takeTime? rest
      return date ++ 'T' :: time ++ (← offset? rest)
    else none
  | none =>
    match takeTime? cs with
    | some (time, []) => some time
    | _ => none

end Bracketed.Toml
