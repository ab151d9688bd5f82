import Bracketed.Associativity
import Bracketed.Evaluation.Item

namespace Bracketed.Item

variable {T : Type}

/-- Reduces the operand at the beginning of a sequence of items. A binary operator there has nothing to
its left. Errors without a position are given that of the first item. -/
def takeFirst : List (Item T) → Run T (Resolved T)
  | [] => Run.fault .missingRight
  | .binary b :: _ => (Run.fault .missingLeft).orAt b.start
  | first :: rest => (takeOperand (first :: rest)).orAt first.start

/-- An operand directly after another operand. It is reduced before the missing operator is noticed, so
an error inside it comes first. -/
def strayOperand (first : Item T) (rest : List (Item T)) : Run T (Resolved T) := do
  let _ ← (takeOperand (first :: rest)).orAt first.start
  Run.fail (.missingOperator (some first.start))

/-- Reduces items from the right: a binary operator takes all that stands to its right. -/
def foldRight (items : List (Item T)) : Run T (Resolved T) :=
  match items with
  | [] => Run.fault .missingRight
  | first :: rest => do
    let x ← takeFirst (first :: rest)
    match _h : dropOperand (first :: rest) with
    | [] => return x
    | .binary b :: right => do
      let y ← (foldRight right).orAt b.start
      b.combine x y
    | stray :: right => strayOperand stray right
termination_by items.length
decreasing_by
  have shorter := length_dropOperand_lt (List.cons_ne_nil first rest)
  rw [_h] at shorter
  exact Nat.lt_of_succ_lt shorter

/-- Reduces the items to the right of `x` from the left: a binary operator takes the operand next to
it. -/
def foldLeftFrom (x : Resolved T) (items : List (Item T)) : Run T (Resolved T) :=
  match items with
  | [] => return x
  | .binary b :: right => do
    let y ← (takeOperand right).orAt b.start
    let z ← b.combine x y
    foldLeftFrom z (dropOperand right)
  | stray :: right => strayOperand stray right
termination_by items.length
decreasing_by exact Nat.lt_succ_of_le (length_dropOperand_le right)

/-- Reduces items from the left. -/
def foldLeft (items : List (Item T)) : Run T (Resolved T) := do
  let x ← takeFirst items
  foldLeftFrom x (dropOperand items)

/-- Reduces the content of a group, which must not be empty. -/
def fold (associativity : Associativity) (items : List (Item T)) : Run T (Resolved T) :=
  match items, associativity with
  | [], _ => Run.fault .emptyGroup
  | _ :: _, .right => foldRight items
  | _ :: _, .left => foldLeft items

end Bracketed.Item
