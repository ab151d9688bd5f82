namespace Bracketed.Text

/-- The text without a sign at its left end, and whether that sign was a minus. -/
def splitSign : List Char → Bool × List Char
  | '-' :: rest => (true, rest)
  | '+' :: rest => (false, rest)
  | rest => (false, rest)

/-- The value of a digit in a base up to sixteen. The digits above nine are letters in either case. -/
def digitValue? (base : Nat) (c : Char) : Option Nat :=
  let value :=
    if '0' ≤ c ∧ c ≤ '9' then c.toNat - '0'.toNat
    else if 'a' ≤ c ∧ c ≤ 'f' then c.toNat - 'a'.toNat + 10
    else if 'A' ≤ c ∧ c ≤ 'F' then c.toNat - 'A'.toNat + 10
    else base
  if value < base then some value else none

/-- Whether a character is a digit in a base up to sixteen. -/
def isDigitOf (base : Nat) (c : Char) : Bool :=
  (digitValue? base c).isSome

/-- The number that digits of a base stand for. At least one digit is needed. -/
def numeral? (base : Nat) (cs : List Char) : Option Nat :=
  if cs.isEmpty then none
  else cs.foldlM (fun n c => (digitValue? base c).map (base * n + ·)) 0

end Bracketed.Text
