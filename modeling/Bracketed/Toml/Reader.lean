import Bracketed.Toml.Scalar
import Bracketed.Toml.Strings
import Bracketed.Toml.Tree

namespace Bracketed.Toml

/-- How deep arrays and tables in braces may be nested, and how many parts a key may have. -/
def nestingLimit : Nat := 79

/-- The text behind spaces. -/
def skipSpaces (cs : List Char) : List Char :=
  cs.dropWhile isSpace

/-- The text behind a comment, if one begins here. -/
def skipComment : List Char → List Char
  | '#' :: rest => rest.dropWhile isTextChar
  | rest => rest

/-- The text behind a line break, which must come after spaces and a comment at most; the end of the
text is as good as a line break. -/
def skipLineEnd (cs : List Char) : Option (List Char) :=
  match skipComment (skipSpaces cs) with
  | [] => some []
  | '\n' :: rest => some rest
  | '\r' :: '\n' :: rest => some rest
  | _ => none

/-- The text behind spaces, comments and line breaks. `inComment` is true inside a comment. -/
def skipLines (inComment : Bool) : List Char → List Char
  | [] => []
  | '\n' :: rest => skipLines false rest
  | '\r' :: '\n' :: rest => skipLines false rest
  | c :: rest =>
    if inComment then if isTextChar c then skipLines true rest else c :: rest
    else if isSpace c then skipLines false rest
    else if c = '#' then skipLines true rest
    else c :: rest

/-- The characters of keys without quotes. -/
def isKeyChar (c : Char) : Bool :=
  c.isAlphanum || c == '_' || c == '-'

/-- Reads one part of a key, and returns it with the text behind it. -/
def takeKey? : List Char → Option (String × List Char)
  | '"' :: rest => (takeBasic rest).map fun (text, rest) => (String.ofList text, rest)
  | '\'' :: rest => (takeLiteral rest).map fun (text, rest) => (String.ofList text, rest)
  | cs =>
    match cs.takeWhile isKeyChar with
    | [] => none
    | key => some (String.ofList key, cs.dropWhile isKeyChar)

/-- Reads a key of at most `parts` parts with points between them. Returns all parts but the last, the
last part, and the text behind it and behind spaces. -/
def takePath? : Nat → List Char → Option (List String × String × List Char)
  | 0, _ => none
  | parts + 1, cs => do
    let (key, rest) ← takeKey? (skipSpaces cs)
    match skipSpaces rest with
    | '.' :: rest =>
      let (path, last, rest) ← takePath? parts rest
      return (key :: path, last, rest)
    | rest => return ([], key, rest)

/-- The characters of values without quotes and brackets. -/
def isBareChar (c : Char) : Bool :=
  c.isAlphanum || c == '_' || c == '-' || c == '+' || c == '.' || c == ':'

/-- Reads a value without quotes and brackets. A date and a time may have one space between them. -/
def takeBare? (cs : List Char) : Option (Value × List Char) := do
  let bare := cs.takeWhile isBareChar
  let rest := cs.dropWhile isBareChar
  match takeDate? bare, rest with
  | some (_, []), ' ' :: c :: more =>
    if c.isDigit then
      let time := (c :: more).takeWhile isBareChar
      return (← bare? (bare ++ ' ' :: time), (c :: more).dropWhile isBareChar)
    else return (← bare? bare, rest)
  | _, _ => return (← bare? bare, rest)

/-- Reads the items of an array behind its opening bracket, at most `fuel` of them, each with
`takeItem`. -/
def takeItems (takeItem : List Char → Option (Value × List Char)) :
    Nat → List Char → Option (List Value × List Char)
  | 0, _ => none
  | fuel + 1, cs =>
    match skipLines false cs with
    | ']' :: rest => some ([], rest)
    | cs => do
      let (item, rest) ← takeItem cs
      match skipLines false rest with
      | ',' :: rest =>
        let (items, rest) ← takeItems takeItem fuel rest
        return (item :: items, rest)
      | ']' :: rest => return ([item], rest)
      | _ => none

/-- Reads the entries of a table in braces behind a brace or a comma, at most `fuel` of them, each value
with `takeItem`. -/
def takeEntries (takeItem : List Char → Option (Value × List Char)) :
    Nat → List Char → Option (List (List String × String × Value) × List Char)
  | 0, _ => none
  | fuel + 1, cs => do
    let (path, name, rest) ← takePath? nestingLimit cs
    match rest with
    | '=' :: rest =>
      let (v, rest) ← takeItem (skipSpaces rest)
      match skipSpaces rest with
      | ',' :: rest =>
        let (entries, rest) ← takeEntries takeItem fuel rest
        return ((path, name, v) :: entries, rest)
      | '\x7d' :: rest => return ([(path, name, v)], rest)
      | _ => none
    | _ => none

/-- Reads a value that holds no other values. -/
def takeFlatValue? (cs : List Char) : Option (Value × List Char) :=
  match cs with
  | '"' :: _ => (takeString? cs).map fun (text, rest) => (.text (String.ofList text), rest)
  | '\'' :: _ => (takeString? cs).map fun (text, rest) => (.text (String.ofList text), rest)
  | _ => takeBare? cs

/-- Reads a value with at most `nesting` levels of brackets and braces in it. -/
def takeValue? : Nat → List Char → Option (Value × List Char)
  | 0, cs => takeFlatValue? cs
  | nesting + 1, cs =>
    match cs with
    | '[' :: rest => do
      let (items, rest) ← takeItems (takeValue? nesting) (rest.length + 1) rest
      return (.array items, rest)
    | '\x7b' :: rest => do
      match skipSpaces rest with
      | '\x7d' :: rest => return (.table [], rest)
      | rest =>
        let (entries, rest) ← takeEntries (takeValue? nesting) (rest.length + 1) rest
        return (.table (Tree.toValues (← Tree.addValues entries [])), rest)
    | _ => takeFlatValue? cs

/-- What one line of a document says. -/
inductive Line where
  | value (path : List String) (name : String) (v : Value)
  | table (path : List String) (name : String)
  /-- A header in double brackets. -/
  | item (path : List String) (name : String)

/-- Reads a line that is not blank, and returns it with the text behind its end. -/
def takeLine? : List Char → Option (Line × List Char)
  | '[' :: '[' :: rest => do
    let (path, name, rest) ← takePath? nestingLimit rest
    match rest with
    | ']' :: ']' :: rest => return (.item path name, ← skipLineEnd rest)
    | _ => none
  | '[' :: rest => do
    let (path, name, rest) ← takePath? nestingLimit rest
    match rest with
    | ']' :: rest => return (.table path name, ← skipLineEnd rest)
    | _ => none
  | cs => do
    let (path, name, rest) ← takePath? nestingLimit cs
    match rest with
    | '=' :: rest =>
      let (v, rest) ← takeValue? nestingLimit (skipSpaces rest)
      return (.value path name v, ← skipLineEnd rest)
    | _ => none

/-- Reads at most `fuel` lines, which must be all. -/
def takeLines : Nat → List Char → Option (List Line)
  | 0, _ => none
  | fuel + 1, cs =>
    match skipLines false cs with
    | [] => some []
    | cs => do
      let (line, rest) ← takeLine? cs
      return line :: (← takeLines fuel rest)

/-- A header with the values below it; the first values of a document have none. -/
structure Section where
  header : Option Line
  values : List (List String × String × Value)

/-- Divides the lines of a document into sections. -/
def sections : List Line → Section × List Section
  | [] => ({ header := none, values := [] }, [])
  | .value path name v :: rest =>
    let (first, others) := sections rest
    ({ first with values := (path, name, v) :: first.values }, others)
  | header :: rest =>
    let (first, others) := sections rest
    ({ header := none, values := [] }, { first with header := some header } :: others)

/-- Adds a section to what has been read. -/
def Section.addTo (s : Section) (entries : Tree.Entries) : Option Tree.Entries :=
  match s.header with
  | some (.table path name) => Tree.addTable path name s.values entries
  | some (.item path name) => Tree.addItem path name s.values entries
  | _ => Tree.addValues s.values entries

/-- Reads a document, which must be a table of settings. A byte order mark may stand before it. -/
def read? (text : String) : Option (List (String × Setting)) := do
  let cs := match text.toList with
    | '\ufeff' :: rest => rest
    | cs => cs
  let (first, others) := sections (← takeLines (cs.length + 1) cs)
  let entries ← (first :: others).foldlM (fun entries s => s.addTo entries) []
  match ← (Value.table (Tree.toValues entries)).setting? with
  | .table settings => some settings
  | _ => none

end Bracketed.Toml
