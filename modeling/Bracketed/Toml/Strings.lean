import Bracketed.Text.Numeral

namespace Bracketed.Toml

/-- The characters that may stand between other things on a line. -/
def isSpace (c : Char) : Bool := c == ' ' || c == '\t'

/-- The characters that may stand in comments and, quotes and backslashes apart, in strings: all but
control characters, of which only the tab is one of them. -/
def isTextChar (c : Char) : Bool :=
  c == '\t' || (0x20 ≤ c.toNat && c.toNat != 0x7F)

/-- The character that a backslash and this letter stand for. -/
def escapedBy? (letter : Char) : Option Char :=
  match letter with
  | 'b' => some '\x08'
  | 't' => some '\t'
  | 'n' => some '\n'
  | 'f' => some '\x0c'
  | 'r' => some '\r'
  | '"' => some '"'
  | '\\' => some '\\'
  | _ => none

/-- The character with the code point that hexadecimal digits stand for. -/
def scalar? (digits : List Char) : Option Char := do
  let code ← Text.numeral? 16 digits
  if code < 0xD800 ∨ (0xDFFF < code ∧ code ≤ 0x10FFFF) then some (Char.ofNat code) else none

/-- Puts a character before a text that has been read. -/
def before (c : Char) (read : Option (List Char × List Char)) : Option (List Char × List Char) :=
  read.map fun (text, rest) => (c :: text, rest)

/-- Reads a string in double quotes behind its first quote, and returns its text with what stands behind
its last quote. -/
def takeBasic : List Char → Option (List Char × List Char)
  | [] => none
  | '"' :: rest => some ([], rest)
  | '\\' :: 'u' :: a :: b :: c :: d :: rest => do before (← scalar? [a, b, c, d]) (takeBasic rest)
  | '\\' :: 'U' :: a :: b :: c :: d :: e :: f :: g :: h :: rest => do
    before (← scalar? [a, b, c, d, e, f, g, h]) (takeBasic rest)
  | '\\' :: letter :: rest => do before (← escapedBy? letter) (takeBasic rest)
  | c :: rest => if isTextChar c then before c (takeBasic rest) else none

/-- Reads a string in single quotes behind its first quote. Nothing in it is escaped. -/
def takeLiteral : List Char → Option (List Char × List Char)
  | [] => none
  | '\'' :: rest => some ([], rest)
  | c :: rest => if isTextChar c then before c (takeLiteral rest) else none

/-- Whether a line ends here after spaces only. -/
def endsLine (cs : List Char) : Bool :=
  match cs.dropWhile isSpace with
  | '\n' :: _ => true
  | '\r' :: '\n' :: _ => true
  | _ => false

/-- Reads a string in three double quotes behind the first three. One or two quotes may stand in it,
also before the last three. A backslash at the end of a line joins the line with the next one that is
not blank; while `joining` is true, the blanks between them are being passed over. -/
def takeLongBasic (joining : Bool) : List Char → Option (List Char × List Char)
  | [] => none
  | '"' :: '"' :: '"' :: '"' :: '"' :: rest => some (['"', '"'], rest)
  | '"' :: '"' :: '"' :: '"' :: rest => some (['"'], rest)
  | '"' :: '"' :: '"' :: rest => some ([], rest)
  | '\\' :: 'u' :: a :: b :: c :: d :: rest => do before (← scalar? [a, b, c, d]) (takeLongBasic false rest)
  | '\\' :: 'U' :: a :: b :: c :: d :: e :: f :: g :: h :: rest => do
    before (← scalar? [a, b, c, d, e, f, g, h]) (takeLongBasic false rest)
  | '\\' :: letter :: rest =>
    match escapedBy? letter with
    | some c => before c (takeLongBasic false rest)
    | none => if endsLine (letter :: rest) then takeLongBasic true (letter :: rest) else none
  | '\r' :: '\n' :: rest =>
    if joining then takeLongBasic true rest else before '\n' (takeLongBasic false rest)
  | c :: rest =>
    if joining && (isSpace c || c == '\n') then takeLongBasic true rest
    else if isTextChar c || c == '\n' then before c (takeLongBasic false rest)
    else none

/-- Reads a string in three single quotes behind the first three. One or two quotes may stand in it,
also before the last three. -/
def takeLongLiteral : List Char → Option (List Char × List Char)
  | [] => none
  | '\'' :: '\'' :: '\'' :: '\'' :: '\'' :: rest => some (['\'', '\''], rest)
  | '\'' :: '\'' :: '\'' :: '\'' :: rest => some (['\''], rest)
  | '\'' :: '\'' :: '\'' :: rest => some ([], rest)
  | '\r' :: '\n' :: rest => before '\n' (takeLongLiteral rest)
  | c :: rest => if isTextChar c || c == '\n' then before c (takeLongLiteral rest) else none

/-- A line break at the beginning of a long string does not belong to it. -/
def dropFirstBreak : List Char → List Char
  | '\n' :: rest => rest
  | '\r' :: '\n' :: rest => rest
  | rest => rest

/-- Reads a string of any of the four kinds, if one begins here. -/
def takeString? : List Char → Option (List Char × List Char)
  | '"' :: '"' :: '"' :: rest => takeLongBasic false (dropFirstBreak rest)
  | '"' :: rest => takeBasic rest
  | '\'' :: '\'' :: '\'' :: rest => takeLongLiteral (dropFirstBreak rest)
  | '\'' :: rest => takeLiteral rest
  | _ => none

end Bracketed.Toml
