import Bracketed.Snapshot.OfExpression

namespace Bracketed

namespace Snapshot

/-- How many characters of a label a drawing shows. -/
def labelLimit : Nat := 30

/-- A label as a drawing shows it: three dots stand for what is beyond the limit. -/
def shortLabel (label : String) : String :=
  if label.length > labelLimit then String.ofList (label.toList.take labelLimit) ++ "..." else label

/-- The sign that a drawing sets before the label of a node of this kind. -/
def icon (kind : String) : String :=
  match kind with
  | "Root" => "⧉"
  | "Group" => "⊏"
  | "Value" => "◦"
  | "Operator" => "ƒ"
  | _ => "○"

/-- What a drawing shows of a node: its sign and its shortened label. -/
def caption (kind label : String) : String :=
  icon kind ++ " " ++ shortLabel label

/-- The branch that leads to a node: the last sibling's has nothing below it. -/
def branch (isLast : Bool) : String :=
  if isLast then "└─" else "├─"

/-- What stands below a branch, to the left of the node's children. -/
def belowBranch (isLast : Bool) : String :=
  if isLast then "  " else "│ "

mutual

/-- Draws a node at the end of a branch behind `margin`, and all below it. -/
def drawBranch (margin : String) (isLast : Bool) : Snapshot → String
  | ⟨kind, label, _, children⟩ =>
    margin ++ branch isLast ++ " " ++ caption kind label ++ "\n" ++
      drawBranches (margin ++ belowBranch isLast) children

/-- Draws siblings and all below them. -/
def drawBranches (margin : String) : List Snapshot → String
  | [] => ""
  | s :: rest => drawBranch margin rest.isEmpty s ++ drawBranches margin rest

end

/-- Draws a tree. The top node stands at the left, and each other node at the end of a branch from its parent. A label
is written as it is with a line feed behind it, so that a node whose label has line feeds takes several lines. -/
def drawing (s : Snapshot) : String :=
  caption s.kind s.label ++ "\n" ++ drawBranches "" s.children

end Snapshot

/-- An expression is displayed as the drawing of its tree. -/
def Expression.display {T : Type} (e : Expression T) : String :=
  e.snapshot.drawing

end Bracketed
