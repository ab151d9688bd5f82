namespace Bracketed.Text

/-- The lines of a text. A line feed ends a line, together with a carriage return directly before
it; any other carriage return belongs to its line. A text that ends in a line feed has no empty line
after it. -/
def lines : List Char → List (List Char)
  | [] => []
  | '\n' :: cs => [] :: lines cs
  | '\r' :: '\n' :: cs => [] :: lines cs
  | c :: cs =>
    match lines cs with
    | [] => [[c]]
    | line :: rest => (c :: line) :: rest

end Bracketed.Text
