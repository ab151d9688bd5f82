import Bracketed.Parser
import Bracketed.Text.Quoted

namespace Bracketed

namespace Description

/-- A record on one line: its name, and its fields in braces. -/
def record (name : String) (fields : List (String × String)) : String :=
  name ++ " \x7b " ++ ", ".intercalate (fields.map fun (field, value) => field ++ ": " ++ value) ++ " \x7d"

/-- A name that wraps one value. -/
def wrapped (name value : String) : String :=
  name ++ "(" ++ value ++ ")"

def sequence (items : List String) : String :=
  "[" ++ ", ".intercalate items ++ "]"

/-- A value that may be absent. -/
def optional : Option String → String
  | none => "None"
  | some value => wrapped "Some" value

end Description

open Description

def OperatorKind.describe : OperatorKind → String
  | .unary => "Unary"
  | .binary => "Binary"

def Associativity.describe : Associativity → String
  | .right => "Right"
  | .left => "Left"

def Grouping.describe (g : Grouping) : String :=
  record "Grouping" [("start", Text.quote g.opening), ("end", Text.quote g.closing)]

def GroupNode.describe (g : GroupNode) : String :=
  record "GroupNode" [
    ("parent", optional (g.parent.map toString)),
    ("grouping", optional (g.grouping.map Grouping.describe)),
    ("children", sequence (g.children.map toString)),
    ("span", g.span.text),
    ("padding", toString g.padding)]

def Value.describe (v : Value) : String :=
  record "ValueNode" [
    ("text", Text.quote v.text), ("raw_len", toString v.rawLength), ("span", v.span.text)]

def OperatorUse.describe (o : OperatorUse) : String :=
  record "OperatorNode" [("operator", toString o.operator), ("span", o.span.text)]

def Node.describe : Node → String
  | group g => wrapped "Group" g.describe
  | value v => wrapped "Value" v.describe
  | operator o => wrapped "Operator" o.describe

variable {T : Type}

/-- An operator is described without its function. -/
def Operator.describe (op : Operator T) : String :=
  record "Operator" [("token", Text.quote op.token), ("kind", op.kind.describe)]

/-- A parser is described without its leaf function. -/
def Parser.describe (p : Parser T) : String :=
  record "Parser" [
    ("operators", sequence (p.operators.map Operator.describe)),
    ("groupings", sequence (p.groupings.map Grouping.describe)),
    ("associativity", p.associativity.describe)]

/-- An expression is described by all that it holds but its leaf function. -/
def Expression.describe (e : Expression T) : String :=
  record "Expression" [
    ("source", Text.quote e.source),
    ("nodes", sequence (e.nodes.map Node.describe)),
    ("operators", sequence (e.operators.map Operator.describe)),
    ("associativity", e.associativity.describe)]

end Bracketed
