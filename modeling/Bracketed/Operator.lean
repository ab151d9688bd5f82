namespace Bracketed

/-- Whether an operator takes only the operand to its right or one on each side. -/
inductive OperatorKind where
  | unary
  | binary
  deriving DecidableEq, Inhabited

/-- The word for a kind of operator, as snapshots show it. -/
def OperatorKind.word : OperatorKind → String
  | .unary => "unary"
  | .binary => "binary"

/-- The function that an operator applies to the values of its operands. -/
inductive Combine (T : Type) where
  | unary (apply : T → T)
  | binary (apply : T → T → T)

/-- An operator chosen by the caller: the token that spells it and the function it applies. -/
structure Operator (T : Type) where
  token : String
  combine : Combine T

namespace Operator

variable {T : Type}

/-- An operator's kind is that of its combining function. -/
def kind (op : Operator T) : OperatorKind :=
  match op.combine with
  | .unary _ => .unary
  | .binary _ => .binary

@[simp] theorem kind_unary (token : String) (f : T → T) :
    (Operator.mk token (.unary f)).kind = .unary := rfl

@[simp] theorem kind_binary (token : String) (f : T → T → T) :
    (Operator.mk token (.binary f)).kind = .binary := rfl

end Operator

end Bracketed
