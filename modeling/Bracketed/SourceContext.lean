import Bracketed.Text.Lines

namespace Bracketed

/-- One line of the source as it is shown around a position: its number counted from one, its text,
and the column of the caret below it if it is the line that the position is on. -/
structure ContextLine where
  number : Nat
  text : List Char
  caret : Option Nat

namespace ContextLine

/-- The digits of a line number, filled up with blanks on the left to three places. -/
def paddedNumber (n : Nat) : List Char :=
  let digits := (toString n).toList
  List.replicate (3 - digits.length) ' ' ++ digits

/-- A marked line begins with `>>` and has a caret line below it. -/
def render (line : ContextLine) : List Char :=
  let body := [' '] ++ paddedNumber line.number ++ [' ', '|', ' '] ++ line.text ++ ['\n']
  match line.caret with
  | none => [' ', ' '] ++ body
  | some column =>
    ['>', '>'] ++ body ++ List.replicate 6 ' ' ++ [' ', '|', ' '] ++ List.replicate column ' ' ++ ['^', '\n']

end ContextLine

/-- The line, counted from zero, and the column of a position. Positions beyond the end count as the
end. -/
def lineAndColumn (source : List Char) (index : Nat) : Nat × Nat :=
  let before := source.take index
  (before.count '\n', (before.reverse.takeWhile (· != '\n')).length)

/-- The lines shown around a position: the one it is on, and up to two on either side. None is marked if the position
stands behind the last line feed of a source that ends with one. -/
def contextLines (source : List Char) (index : Nat) : List ContextLine :=
  let (line, column) := lineAndColumn source index
  let window := ((Text.lines source).zipIdx.take (line + 3)).drop (line - 2)
  window.map fun (text, i) =>
    { number := i + 1, text, caret := if i = line then some column else none }

/-- The numbered lines of the source around a position. Below the marked one, if it is there, stands a caret behind a
margin of nine characters and as many blanks as the column says. The margin of a numbered line is wider than that once
its number has more than three digits. -/
def sourceContext (source : String) (index : Nat) : String :=
  String.ofList ((contextLines source.toList index).flatMap ContextLine.render)

/-- A message, followed by the source around its position if it has one. -/
def withSourceContext (message source : String) : Option Nat → String
  | none => message
  | some index => message ++ "\n\n" ++ sourceContext source index

end Bracketed
