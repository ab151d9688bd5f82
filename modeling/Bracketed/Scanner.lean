import Bracketed.Parser

namespace Bracketed

/-- The text since the last token. -/
structure Pending where
  text : String := ""
  /-- Where its first character stands. -/
  start : Nat := 0
  length : Nat := 0

/-- Why a text is not read to a list of nodes. -/
inductive ScanHalt where
  /-- Nodes were to be put into a node that is not there or is no group. -/
  | noGroup (id : Nat)
  /-- The token at this position covers no character, so reading would never get past it. -/
  | endless (position : Nat)
  | failed (e : ParseError)
  deriving DecidableEq

/-- Reads a text from left to right, and builds the numbered view of its tree while it does. -/
structure Scanner where
  nodes : List Node
  /-- The number of the innermost open group, which the next node goes into. -/
  current : Nat
  pending : Pending
  /-- What has not been read yet. -/
  rest : List Char
  /-- Where that begins in the source. -/
  index : Nat

namespace Scanner

/-- Before anything has been read there is the root alone. -/
def atStart (source : String) : Scanner where
  nodes := [.group { parent := none, grouping := none, children := [], span := ⟨0, 0⟩, padding := 0 }]
  current := Expression.rootId
  pending := {}
  rest := source.toList
  index := 0

/-- Goes on behind a token. -/
def advance (s : Scanner) (token : String) : Scanner :=
  { s with rest := s.rest.drop token.length, index := s.index + token.length }

/-- Goes on behind a character that belongs to the pending text. -/
def accumulate (s : Scanner) (c : Char) : Scanner :=
  { s with
    pending := {
      text := s.pending.text.push c
      start := if s.pending.length = 0 then s.index else s.pending.start
      length := s.pending.length + 1 }
    rest := s.rest.drop 1
    index := s.index + 1 }

def currentGroup (s : Scanner) : Except ScanHalt GroupNode :=
  match s.nodes[s.current]? with
  | some (.group g) => return g
  | _ => throw (.noGroup s.current)

/-- The end delimiter of the innermost open group. -/
def currentEnd (s : Scanner) : Except ScanHalt (Option String) :=
  match s.nodes[s.current]? with
  | some (.group g) => return g.grouping.map Grouping.closing
  | some _ => return none
  | none => throw (.noGroup s.current)

/-- Writes `g` over the innermost open group. -/
def putGroup (s : Scanner) (g : GroupNode) : Scanner :=
  { s with nodes := s.nodes.set s.current (.group g) }

/-- Adds a node, which becomes the last child of the innermost open group, and returns its number. -/
def push (s : Scanner) (n : Node) : Except ScanHalt (Nat × Scanner) := do
  let id := s.nodes.length
  let s := { s with nodes := s.nodes ++ [n] }
  let g ← s.currentGroup
  return (id, s.putGroup { g with children := g.children ++ [id] })

/-- Opens a group whose start delimiter is about to be passed. -/
def openGroup (s : Scanner) (grouping : Grouping) : Except ScanHalt Scanner := do
  let head : GroupNode := {
    parent := some s.current
    grouping := some grouping
    children := []
    span := ⟨s.index, s.index⟩
    padding := 0 }
  let (id, s) ← s.push (.group head)
  return { s with current := id }

/-- Closes the innermost open group, whose end delimiter has been passed. -/
def closeGroup (s : Scanner) : Except ScanHalt Scanner := do
  let g ← s.currentGroup
  let s := s.putGroup { g with span := { g.span with stop := s.index } }
  return { s with current := g.parent.getD Expression.rootId }

/-- Ends the pending text. Trimmed of blanks it becomes a value; if nothing is left of it, its blanks are
padding. -/
def flush (s : Scanner) : Except ScanHalt Scanner := do
  let pending := s.pending
  let s := { s with pending := {} }
  if pending.length = 0 then
    return s
  else
    let run := pending.text.toList
    let text := Text.trim run
    if text.isEmpty then
      let g ← s.currentGroup
      return s.putGroup { g with padding := g.padding + pending.length }
    else
      let start := pending.start + Text.leadingBlanks run
      let v : Value :=
        { text := String.ofList text, rawLength := pending.length, span := ⟨start, start + text.length⟩ }
      let (_, s) ← s.push (.value v)
      return s

/-- What has been read at the end of the text, unless a group is left open there. -/
def finish (s : Scanner) : Except ScanHalt (List Node) := do
  let g ← s.currentGroup
  if s.current ≠ Expression.rootId then
    throw (.failed (.unclosedGroup ((g.grouping.map Grouping.opening).getD "") g.span.start))
  else
    return (s.putGroup { g with span := ⟨0, s.index⟩ }).nodes

/-- Reads the next token or character. Start delimiters come first, then the end delimiter of the innermost open
group, then all other end delimiters, then operators; a character is pending text only if none of these begins
at it. -/
def step (v : Vocabulary) (s : Scanner) : Except ScanHalt Scanner := do
  match v.opening? s.rest with
  | some g =>
    let s ← s.flush
    let s ← s.openGroup g
    return s.advance g.opening
  | none =>
    let closing ← s.currentEnd
    match closing.filter fun closing => closing.toList.isPrefixOf s.rest with
    | some closing =>
      let s ← s.flush
      (s.advance closing).closeGroup
    | none =>
      match v.closing? s.rest with
      | some g => throw (.failed (.unbalancedEnd g.closing s.index))
      | none =>
        match v.operator? s.rest with
        | some (token, slot) =>
          let s ← s.flush
          let start := s.index
          let s := s.advance token
          let (_, s) ← s.push (.operator ⟨slot, ⟨start, s.index⟩⟩)
          return s
        | none =>
          match s.rest with
          | c :: _ => return s.accumulate c
          | [] => return s

/-- Reads all that is left of the text. -/
def scanFrom (v : Vocabulary) (s : Scanner) : Except ScanHalt (List Node) := do
  if s.rest.isEmpty then
    let s ← s.flush
    s.finish
  else
    let next ← s.step v
    if next.rest.length < s.rest.length then
      scanFrom v next
    else
      throw (.endless s.index)
termination_by s.rest.length

end Scanner

/-- Reads a text to the nodes of its tree, in the order of their numbers. -/
def Parser.scan {T : Type} (p : Parser T) (source : String) : Except ScanHalt (List Node) := do
  p.vocabulary.check.mapError .failed
  Scanner.scanFrom p.vocabulary (.atStart source)

end Bracketed
