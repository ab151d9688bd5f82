import Bracketed.SourceContext

namespace Bracketed

/-- Why an operator did not get its operands. -/
inductive OperandFault where
  /-- A binary operator where a group begins. -/
  | missingLeft
  /-- An operator where a group ends. -/
  | missingRight
  /-- A binary operator directly after another operator. -/
  | unresolvedLeft
  /-- An operand that has no value. -/
  | unresolvedOperand
  /-- A group, or a whole text, with nothing in it. -/
  | emptyGroup
  deriving DecidableEq

namespace OperandFault

def message : OperandFault → String
  | missingLeft => "operator has no left operand"
  | missingRight => "operator has no right operand"
  | unresolvedLeft => "left operand of operator is another operator"
  | unresolvedOperand => "operand did not resolve to a value"
  | emptyGroup => "group is empty"

end OperandFault

/-- Why a tree could not be evaluated. An error may be raised before its position is known. -/
inductive EvalError where
  /-- Two operands stand next to each other with nothing to combine them. -/
  | missingOperator (index : Option Nat)
  /-- An operand is missing, or is none. -/
  | invalidOperand (fault : OperandFault) (index : Option Nat)
  deriving DecidableEq

namespace EvalError

def index : EvalError → Option Nat
  | missingOperator index => index
  | invalidOperand _ index => index

/-- Gives the error a position unless it has one, so that the innermost position wins. -/
def orAt (position : Nat) : EvalError → EvalError
  | missingOperator index => missingOperator (index.or (some position))
  | invalidOperand fault index => invalidOperand fault (index.or (some position))

def message (e : EvalError) : String :=
  let place := match e.index with
    | none => ""
    | some index => " at character " ++ toString index
  match e with
  | missingOperator _ => "missing operator between operands" ++ place
  | invalidOperand fault _ => "invalid operand: " ++ fault.message ++ place

/-- The message and the source lines around the fault. -/
def inContext (e : EvalError) (source : String) : String :=
  withSourceContext e.message source e.index

@[simp] theorem index_orAt (e : EvalError) (position : Nat) :
    (e.orAt position).index = e.index.or (some position) := by
  cases e <;> rfl

@[simp] theorem orAt_orAt (e : EvalError) (p q : Nat) : (e.orAt p).orAt q = e.orAt p := by
  rcases e with ⟨_ | _⟩ | ⟨_, _ | _⟩ <;> rfl

end EvalError

end Bracketed
