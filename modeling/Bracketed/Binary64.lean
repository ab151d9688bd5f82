import Bracketed.Decimal

namespace Bracketed

/-- A power of two. -/
def powerOfTwo (n : Nat) : Nat := Nat.pow 2 n

/-- A power of ten. -/
def powerOfTen (n : Nat) : Nat := Nat.pow 10 n

/-- A binary floating point number of 64 bits. A finite one is a significand below `2 ^ 53` times a
power of two. -/
inductive Binary64 where
  | finite (negative : Bool) (significand : Nat) (exponent : Int)
  | infinite (negative : Bool)
  | nan
  deriving DecidableEq

namespace Binary64

/-- The least exponent, which belongs to the numbers next to zero. -/
def leastExponent : Int := -1074

/-- The greatest exponent, which belongs to the largest finite numbers. -/
def greatestExponent : Int := 971

def isZero : Binary64 → Bool
  | finite _ significand _ => significand == 0
  | _ => false

def isFinite : Binary64 → Bool
  | finite .. => true
  | _ => false

/-- The quotient of two numbers, rounded to the nearest integer and in the middle to the even one. -/
def roundedQuotient (numerator denominator : Nat) : Nat :=
  let quotient := numerator / denominator
  let remainder := 2 * (numerator % denominator)
  if remainder < denominator then quotient
  else if denominator < remainder then quotient + 1
  else if quotient % 2 = 0 then quotient else quotient + 1

/-- The number nearest to a fraction, with an even significand in the middle between two. -/
def ofFraction (negative : Bool) (numerator denominator : Nat) : Binary64 :=
  if numerator = 0 then finite negative 0 leastExponent
  else
    let guess : Int := (Nat.log2 numerator : Int) - Nat.log2 denominator - 53
    let scaled (exponent : Int) : Nat × Nat :=
      (numerator * powerOfTwo (-exponent).toNat, denominator * powerOfTwo exponent.toNat)
    let fits (exponent : Int) : Bool :=
      let (n, d) := scaled exponent
      n / d < powerOfTwo 53
    let exponent := max leastExponent (if fits guess then guess else guess + 1)
    let (n, d) := scaled exponent
    let significand := roundedQuotient n d
    let (significand, exponent) :=
      if significand = powerOfTwo 53 then (powerOfTwo 52, exponent + 1) else (significand, exponent)
    if greatestExponent < exponent then infinite negative else finite negative significand exponent

/-- The number nearest to a decimal number. Powers of ten that lie far outside the range of finite numbers
are not worked out. -/
def ofDecimal (negative : Bool) (d : Decimal) : Binary64 :=
  if d.digits = 0 then finite negative 0 leastExponent
  else if 400 < d.exponent then infinite negative
  else if d.exponent + Nat.log2 d.digits < -400 then finite negative 0 leastExponent
  else ofFraction negative (d.digits * powerOfTen d.exponent.toNat) (powerOfTen (-d.exponent).toNat)

/-- A range of numbers around a value, all multiplied with one unit so that they are integers. -/
structure Range where
  low : Nat
  value : Nat
  high : Nat
  /-- Whether both ends belong to the range. -/
  closed : Bool

namespace Range

def contains (r : Range) (n : Nat) : Bool :=
  if r.closed then r.low ≤ n && n ≤ r.high else r.low < n && n < r.high

/-- The multiple of `step` in the range that is nearest to the value, and of two that are equally near the
greater, divided by `step`. Only the two multiples next to the value can be that one. -/
def nearestMultiple? (r : Range) (step : Nat) : Option Nat :=
  let below := r.value / step
  let above := below + 1
  match r.contains (below * step), r.contains (above * step) with
  | true, true => some (if r.value - below * step < above * step - r.value then below else above)
  | true, false => some below
  | false, true => some above
  | false, false => none

/-- The greatest power of ten from `10 ^ power` downwards that has a multiple in the range, with the one
nearest to the value. -/
def shortestMultiple (r : Range) (unit : Nat) : Nat → Nat × Nat
  | 0 => ((r.nearestMultiple? unit).getD (r.value / unit), 0)
  | power + 1 =>
    match r.nearestMultiple? (powerOfTen (power + 1) * unit) with
    | some n => (n, power + 1)
    | none => r.shortestMultiple unit power

end Range

/-- The decimal number with the fewest digits that rounds to a finite number other than zero, and of those
the nearest one. -/
def shortest (significand : Nat) (exponent : Int) : Decimal :=
  let shift := powerOfTwo (exponent - leastExponent).toNat * powerOfTen 325
  let nearerBelow := significand = powerOfTwo 52 ∧ leastExponent < exponent
  let range : Range :=
    { low := (4 * significand - if nearerBelow then 1 else 2) * shift
      value := 4 * significand * shift
      high := (4 * significand + 2) * shift
      closed := significand % 2 == 0 }
  let (digits, power) := range.shortestMultiple (4 * powerOfTwo (-leastExponent).toNat) 634
  { digits, exponent := (power : Int) - 325 }

/-- The number in base ten with the fewest digits that round to it, always without an exponent. -/
def text : Binary64 → String
  | finite negative significand exponent =>
    let sign := if negative then "-" else ""
    if significand = 0 then sign ++ "0" else sign ++ (shortest significand exponent).positional
  | infinite negative => if negative then "-inf" else "inf"
  | nan => "NaN"

end Binary64

end Bracketed
