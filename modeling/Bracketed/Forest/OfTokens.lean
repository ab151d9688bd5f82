import Bracketed.Forest
import Bracketed.Text.Blank
import Bracketed.Token

namespace Bracketed

/-- The content of one group while its tokens are read from right to left: the characters of a value
whose left end has not been reached yet, and what stands to the right of them. -/
structure Level where
  /-- Where the group ends in the source. -/
  stop : Nat
  run : List Char
  padding : Nat
  forest : Forest

namespace Level

/-- The content before its last token has been read. -/
def emptyAt (stop : Nat) : Level :=
  { stop, run := [], padding := 0, forest := .nil }

/-- Puts one more character to the left of the run. -/
def pushChar (l : Level) (c : Char) : Level :=
  { l with run := c :: l.run }

/-- Ends the run at its left end, which stands at `start`. Trimmed of blanks it becomes a value; if
nothing is left of it, its blanks are padding. -/
def flush (l : Level) (start : Nat) : Level :=
  match Text.trim l.run with
  | [] => { l with run := [], padding := l.run.length + l.padding }
  | text@(_ :: _) =>
    let first := start + Text.leadingBlanks l.run
    let v : Value :=
      { text := String.ofList text, rawLength := l.run.length, span := ⟨first, first + text.length⟩ }
    { l with run := [], forest := .value v l.forest }

/-- Puts an operator that stands at `span` to the left of the content. -/
def pushOperator (l : Level) (index : Nat) (span : Span) : Level :=
  let l := l.flush span.stop
  { l with forest := .operator ⟨index, span⟩ l.forest }

/-- Puts a finished group, whose end delimiter this level's run began after, to the left of the
content. -/
def pushGroup (l : Level) (g : Grouping) (start : Nat) (content : Level) : Level :=
  let content := content.flush (start + g.opening.length)
  let e : Enclosure := { grouping := g, span := ⟨start, content.stop⟩, padding := content.padding }
  { l with forest := .group e content.forest l.forest }

/-- Reads tokens from right to left. The result holds the innermost group that the left end of the
tokens stands in, and the groups around it from the inside out. An end delimiter enters a group, a
start delimiter leaves it. -/
def ofTokens (position : Nat) : List Token → Level × List Level
  | [] => (emptyAt position, [])
  | token :: rest =>
    let next := position + token.length
    let (inner, outer) := ofTokens next rest
    match token with
    | .char c => (inner.pushChar c, outer)
    | .operator index _ => (inner.pushOperator index ⟨position, next⟩, outer)
    | .closing _ => (emptyAt next, inner.flush next :: outer)
    | .opening g =>
      match outer with
      | enclosing :: outer => (enclosing.pushGroup g position inner, outer)
      | [] => ((emptyAt inner.stop).pushGroup g position inner, [])

end Level

/-- The tree that a whole text's tokens form: the padding and the nodes of its root. -/
def Level.root (tokens : List Token) : Level :=
  (Level.ofTokens 0 tokens).1.flush 0

end Bracketed
