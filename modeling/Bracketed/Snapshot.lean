import Bracketed.SortedMap

namespace Bracketed

/-- A tree that shows what a node is without referring to any function: what every format writes. -/
structure Snapshot where
  /-- The kind of node, such as `Group` or `Value`. -/
  kind : String
  label : String
  attributes : SortedMap String
  children : List Snapshot

namespace Snapshot

/-- A node without attributes and children. -/
def leaf (kind label : String) : Snapshot :=
  { kind, label, attributes := ∅, children := [] }

/-- Gives an attribute a value, in place of the value it has had so far. -/
def withAttribute (s : Snapshot) (key value : String) : Snapshot :=
  { s with attributes := s.attributes.insert key value }

/-- Adds children after those that the node has. -/
def withChildren (s : Snapshot) (children : List Snapshot) : Snapshot :=
  { s with children := s.children ++ children }

end Snapshot

end Bracketed
