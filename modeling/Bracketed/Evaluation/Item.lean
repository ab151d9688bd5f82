import Bracketed.Evaluation.Run
import Bracketed.Operator

namespace Bracketed

/-- What a part of a tree has been reduced to: its value, and how many characters of the source it
accounts for. -/
structure Resolved (T : Type) where
  value : T
  consumed : Nat

/-- An occurrence of a unary operator: the number and the position of its node, and the operator. -/
structure UnaryUse (T : Type) where
  id : Nat
  start : Nat
  token : String
  apply : T → T

/-- An occurrence of a binary operator: the number and the position of its node, and the operator. -/
structure BinaryUse (T : Type) where
  id : Nat
  start : Nat
  token : String
  apply : T → T → T

/-- A node of a group's content as evaluation sees it: an operator, or an operand that is reduced when
its turn comes. -/
inductive Item (T : Type) where
  | operand (start : Nat) (reduce : Run T (Resolved T))
  | unary (u : UnaryUse T)
  | binary (b : BinaryUse T)

variable {T : Type}

/-- Applies a unary operator. The result accounts for the operator's token too. -/
def UnaryUse.combine (u : UnaryUse T) (x : Resolved T) : Run T (Resolved T) := do
  Run.tell (.unary u.id u.token x.value)
  return ⟨u.apply x.value, u.token.length + x.consumed⟩

/-- Applies a binary operator. The result accounts for the operator's token too. -/
def BinaryUse.combine (b : BinaryUse T) (x y : Resolved T) : Run T (Resolved T) := do
  Run.tell (.binary b.id b.token x.value y.value)
  return ⟨b.apply x.value y.value, x.consumed + b.token.length + y.consumed⟩

namespace Item

/-- Where the item's node begins in the source. -/
def start : Item T → Nat
  | operand start _ => start
  | unary u => u.start
  | binary b => b.start

/-- Reduces the operand that the items begin with: any number of unary operators, and then a value or
a group. -/
def takeOperand : List (Item T) → Run T (Resolved T)
  | [] => Run.fault .missingRight
  | .operand _ reduce :: _ => reduce
  | .unary u :: rest => do u.combine (← takeOperand rest)
  | .binary _ :: _ => Run.fault .unresolvedLeft

/-- The items after the operand that they begin with. -/
def dropOperand : List (Item T) → List (Item T)
  | [] => []
  | .unary _ :: rest => dropOperand rest
  | .operand _ _ :: rest => rest
  | .binary _ :: rest => rest

theorem length_dropOperand_le (items : List (Item T)) : (dropOperand items).length ≤ items.length := by
  fun_induction dropOperand items <;> simp_all
  omega

theorem length_dropOperand_lt {items : List (Item T)} (h : items ≠ []) :
    (dropOperand items).length < items.length := by
  fun_induction dropOperand items with
  | case1 => exact absurd rfl h
  | case2 u rest _ => exact Nat.lt_succ_of_le (length_dropOperand_le rest)
  | case3 => exact Nat.lt_succ_self _
  | case4 => exact Nat.lt_succ_self _

end Item

end Bracketed
