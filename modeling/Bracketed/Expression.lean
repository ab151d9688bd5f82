import Bracketed.Associativity
import Bracketed.Node
import Bracketed.Operator

namespace Bracketed

/-- A text that was read as a tree, with all that is needed to evaluate it any number of times. -/
structure Expression (T : Type) where
  source : String
  /-- How many blanks stand outside all values and groups. -/
  padding : Nat
  /-- The nodes below the root. -/
  content : Forest
  /-- The operators that the nodes of the tree refer to. -/
  operators : List (Operator T)
  /-- The function that gives a value's text its meaning unless the caller brings another one. -/
  leaf : String → T
  associativity : Associativity

namespace Expression

variable {T : Type}

/-- The root is a group without delimiters around the whole source. -/
def root (e : Expression T) : GroupNode :=
  { parent := none
    grouping := none
    children := e.content.ids 1
    span := ⟨0, e.source.length⟩
    padding := e.padding }

/-- The root has the number zero. -/
def rootId : Nat := 0

/-- All nodes in the order of their numbers, the root first. -/
def nodes (e : Expression T) : List Node :=
  .group e.root :: e.content.nodes rootId 1

def node? (e : Expression T) (id : Nat) : Option Node :=
  e.nodes[id]?

/-- The group with this number, if the node with this number is one. -/
def group? (e : Expression T) (id : Nat) : Option GroupNode :=
  (e.node? id).bind Node.group?

/-- The registered operator that an occurrence refers to. -/
def operator? (e : Expression T) (o : OperatorUse) : Option (Operator T) :=
  e.operators[o.operator]?

@[simp] theorem length_nodes (e : Expression T) : e.nodes.length = e.content.size + 1 := by
  simp [nodes]

end Expression

end Bracketed
