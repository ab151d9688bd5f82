import Bracketed.Evaluation.Fold
import Bracketed.Expression

namespace Bracketed

variable {T : Type}

/-- What evaluating a tree depends on besides the tree: the operators its nodes refer to, the meaning
of values, and the associativity. -/
structure Meaning (T : Type) where
  operators : List (Operator T)
  leaf : String → T
  associativity : Associativity

/-- Applies the leaf function to a value, which accounts for all characters of its run. -/
def Value.reduce (v : Value) (leaf : String → T) (id : Nat) : Run T (Resolved T) := do
  Run.tell (.leaf id v.text)
  return ⟨leaf v.text, v.rawLength⟩

/-- Reduces a group to what its content reduces to. Delimiters and padding belong to the group and not
to any of its children. -/
def Enclosure.reduce (e : Enclosure) (associativity : Associativity) (id : Nat) (content : List (Item T)) :
    Run T (Resolved T) := do
  let x ← Item.fold associativity content
  Run.tell (.group id)
  return ⟨x.value, x.consumed + e.grouping.delimiterLength + e.padding⟩

/-- An operator as an item. A node that refers to no registered operator is an operand without a
value. -/
def OperatorUse.item (o : OperatorUse) (operators : List (Operator T)) (id : Nat) : Item T :=
  match operators[o.operator]? with
  | none => .operand o.span.start (Run.fault .unresolvedOperand)
  | some ⟨token, .unary apply⟩ => .unary { id, start := o.span.start, token, apply }
  | some ⟨token, .binary apply⟩ => .binary { id, start := o.span.start, token, apply }

/-- The siblings at the top as items, the first of them having the number `first`. -/
def Forest.items (m : Meaning T) (first : Nat) : Forest → List (Item T)
  | .nil => []
  | .value v rest => .operand v.span.start (v.reduce m.leaf first) :: rest.items m (first + 1)
  | .operator o rest => o.item m.operators first :: rest.items m (first + 1)
  | .group e content rest =>
    .operand e.span.start (e.reduce m.associativity first (content.items m (first + 1))) ::
      rest.items m (first + 1 + content.size)

namespace Expression

/-- Evaluates the expression with `leaf` giving values their meaning, and tells what happens on the way.
The tree is only looked at, so it can be evaluated again. -/
def run (e : Expression T) (leaf : String → T) : Run T (Resolved T) := do
  let m : Meaning T := { operators := e.operators, leaf, associativity := e.associativity }
  let x ← (Item.fold e.associativity (e.content.items m (rootId + 1))).orAt 0
  return ⟨x.value, x.consumed + e.padding⟩

/-- Evaluates the expression with another leaf function in place of the one it was parsed with. -/
def evaluateWith (e : Expression T) (leaf : String → T) : Except EvalError (Resolved T) :=
  (e.run leaf).result

/-- Evaluates the expression with the leaf function it was parsed with. -/
def evaluate (e : Expression T) : Except EvalError (Resolved T) :=
  e.evaluateWith e.leaf

end Expression

end Bracketed
