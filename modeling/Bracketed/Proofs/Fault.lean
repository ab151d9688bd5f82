import Bracketed.Proofs.Grammar

namespace Bracketed

instance {T : Type} (o : OperatorUse) (operators : List (Operator T)) (kind : OperatorKind) :
    Decidable (o.IsOfKind operators kind) :=
  inferInstanceAs (Decidable (_ = _))

/-- What may stand next where the children of a group are read from left to right. -/
inductive Expected where
  /-- The first operand of the group. -/
  | first
  /-- The operand behind the binary operator that stands at `before`. -/
  | right (before : Nat)
  /-- What the unary operators apply to that an operand has begun with. Its faults are reported at
  `position`, and it is `stray` if it stands directly behind another operand. -/
  | applied (position : Nat) (stray : Bool)
  /-- A binary operator, or the end of the group. -/
  | operator

namespace Expected

/-- Where a fault of an operand that stands at `start` is reported. To the left, a binary operator takes no
more than the operand next to it and answers for that one's faults; to the right, that operand is the
first of all that the operator takes. -/
def position (a : Associativity) (start : Nat) : Expected → Nat
  | first => start
  | right before =>
    match a with
    | .right => start
    | .left => before
  | applied position _ => position
  | operator => start

/-- Whether an operand would stand directly behind another one here. -/
def isStray : Expected → Bool
  | first => false
  | right _ => false
  | applied _ stray => stray
  | operator => true

/-- What is wrong if the group ends here. -/
def faultAtEnd : Expected → Option EvalError
  | first => some (.invalidOperand .emptyGroup none)
  | right before => some (.invalidOperand .missingRight (some before))
  | applied position _ => some (.invalidOperand .missingRight (some position))
  | operator => none

/-- What is wrong if a binary operator stands here, at `start`. -/
def faultAtBinary (a : Associativity) (start : Nat) : Expected → Option EvalError
  | first => some (.invalidOperand .missingLeft (some start))
  | right before =>
    match a with
    | .right => some (.invalidOperand .missingLeft (some start))
    | .left => some (.invalidOperand .unresolvedLeft (some before))
  | applied position _ => some (.invalidOperand .unresolvedLeft (some position))
  | operator => none

/-- What is wrong if an operand stands here, at `start`, that has no fault of its own. -/
def faultAtOperand (a : Associativity) (start : Nat) (expected : Expected) : Option EvalError :=
  if expected.isStray then some (.missingOperator (some (expected.position a start))) else none

end Expected

namespace Forest

variable {T : Type} (operators : List (Operator T)) (a : Associativity)

/-- The first thing that is wrong with the rest of a group's children, read from left to right. A group
among them is read before it is found to be stray. An error inside it that has a position keeps it. -/
def fault (expected : Expected) : Forest → Option EvalError
  | nil => expected.faultAtEnd
  | value v rest => (expected.faultAtOperand a v.span.start).or (rest.fault .operator)
  | operator o rest =>
    if o.IsOfKind operators .binary then
      (expected.faultAtBinary a o.span.start).or (rest.fault (.right o.span.start))
    else
      rest.fault (.applied (expected.position a o.span.start) expected.isStray)
  | group e content rest =>
    ((content.fault .first).map (EvalError.orAt (expected.position a e.span.start))).or
      ((expected.faultAtOperand a e.span.start).or (rest.fault .operator))

end Forest

end Bracketed
