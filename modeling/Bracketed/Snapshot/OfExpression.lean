import Bracketed.Expression
import Bracketed.Snapshot

namespace Bracketed

variable {T : Type}

namespace Snapshot

def ofValue (v : Value) : Snapshot :=
  (leaf "Value" v.text).withAttribute "span" v.span.text

/-- An operator is shown by the token and the kind that it was registered with. -/
def ofOperator (operators : List (Operator T)) (o : OperatorUse) : Snapshot :=
  match operators[o.operator]? with
  | none => (leaf "Operator" "").withAttribute "span" o.span.text
  | some op =>
    ((leaf "Operator" op.token).withAttribute "kind" op.kind.word).withAttribute "span" o.span.text

/-- A group is shown by its delimiters and its children. -/
def ofGroup (e : Enclosure) (children : List Snapshot) : Snapshot :=
  ((((leaf "Group" e.grouping.label).withAttribute "start" e.grouping.opening).withAttribute "end"
    e.grouping.closing).withAttribute "span" e.span.text).withChildren children

end Snapshot

/-- Snapshots of the siblings at the top. -/
def Forest.snapshots (operators : List (Operator T)) : Forest → List Snapshot
  | .nil => []
  | .value v rest => .ofValue v :: rest.snapshots operators
  | .operator o rest => .ofOperator operators o :: rest.snapshots operators
  | .group e content rest => .ofGroup e (content.snapshots operators) :: rest.snapshots operators

/-- A snapshot of the whole tree, labelled with the number of the root's children. -/
def Expression.snapshot (e : Expression T) : Snapshot :=
  ((Snapshot.leaf "Root" ("Root (" ++ toString e.content.width ++ " items)")).withAttribute "span"
    e.root.span.text).withChildren (e.content.snapshots e.operators)

end Bracketed
