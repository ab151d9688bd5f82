import Bracketed.Forest

namespace Bracketed

/-- A group in the numbered view of a tree. Only the root has neither parent nor grouping. -/
structure GroupNode where
  parent : Option Nat
  grouping : Option Grouping
  /-- The numbers of the children in source order. -/
  children : List Nat
  span : Span
  padding : Nat
  deriving DecidableEq

/-- A node in the numbered view of a tree, where nodes refer to each other by their numbers. -/
inductive Node where
  | group (g : GroupNode)
  | value (v : Value)
  | operator (o : OperatorUse)
  deriving DecidableEq

namespace GroupNode

/-- The root is the group without a parent. -/
def isRoot (g : GroupNode) : Bool :=
  g.parent.isNone

/-- The characters that the group's delimiters take; the root has none. -/
def delimiterLength (g : GroupNode) : Nat :=
  match g.grouping with
  | none => 0
  | some grouping => grouping.delimiterLength

end GroupNode

namespace Node

def span : Node → Span
  | group g => g.span
  | value v => v.span
  | operator o => o.span

def group? : Node → Option GroupNode
  | group g => some g
  | _ => none

def value? : Node → Option Value
  | value v => some v
  | _ => none

def operator? : Node → Option OperatorUse
  | operator o => some o
  | _ => none

end Node

namespace Forest

/-- The numbers of the siblings at the top if the first of them has the number `first`. Nodes are
numbered in the order in which they begin in the source, so a sibling's number exceeds those of all nodes
inside the one before it. -/
def ids (first : Nat) : Forest → List Nat
  | nil => []
  | value _ rest => first :: rest.ids (first + 1)
  | operator _ rest => first :: rest.ids (first + 1)
  | group _ content rest => first :: rest.ids (first + 1 + content.size)

/-- The nodes in the order of their numbers, the first one having the number `first` and the siblings
at the top having the parent `parent`. -/
def nodes (parent first : Nat) : Forest → List Node
  | nil => []
  | value v rest => .value v :: rest.nodes parent (first + 1)
  | operator o rest => .operator o :: rest.nodes parent (first + 1)
  | group e content rest =>
    let head : GroupNode :=
      { parent := some parent
        grouping := some e.grouping
        children := content.ids (first + 1)
        span := e.span
        padding := e.padding }
    .group head :: (content.nodes first (first + 1) ++ rest.nodes parent (first + 1 + content.size))

@[simp] theorem length_ids (f : Forest) (first : Nat) : (f.ids first).length = f.width := by
  induction f generalizing first <;> simp_all [ids, width, Nat.add_comm]

@[simp] theorem length_nodes (f : Forest) (parent first : Nat) : (f.nodes parent first).length = f.size := by
  induction f generalizing parent first with
  | nil => rfl
  | value v rest ih => simp [nodes, size, ih, Nat.add_comm]
  | operator o rest ih => simp [nodes, size, ih, Nat.add_comm]
  | group e content rest ihc ihr => simp [nodes, size, ihc, ihr]; omega

end Forest

end Bracketed
