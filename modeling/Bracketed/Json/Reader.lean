import Bracketed.Json
import Bracketed.Json.Escape

namespace Bracketed.Json

/-- The parts that a JSON text is written with. -/
inductive Token where
  | openBracket
  | closeBracket
  | openBrace
  | closeBrace
  | comma
  | colon
  /-- A value without parts. -/
  | scalar (value : Value)
  /-- A string, which may be a value or a key. -/
  | string (written : List Char)

/-- The blanks that may stand between tokens. -/
def isBlank (c : Char) : Bool :=
  c == ' ' || c == '\n' || c == '\t' || c == '\r'

/-- Reads a written string up to its closing quote, and returns it with the text behind the quote. Control
characters must be escaped, and escapes must be complete. -/
def takeString : List Char → Option (List Char × List Char)
  | [] => none
  | '"' :: rest => some ([], rest)
  | '\\' :: 'u' :: a :: b :: c :: d :: rest => do
    let _ ← hexQuad? a b c d
    let (written, rest) ← takeString rest
    return ('\\' :: 'u' :: a :: b :: c :: d :: written, rest)
  | '\\' :: letter :: rest => do
    let _ ← escapedBy? letter
    let (written, rest) ← takeString rest
    return ('\\' :: letter :: written, rest)
  | c :: rest =>
    if c.toNat < 0x20 then none
    else do
      let (written, rest) ← takeString rest
      return (c :: written, rest)

theorem length_lt_of_takeString {cs written rest : List Char} (h : takeString cs = some (written, rest)) :
    rest.length < cs.length := by
  fun_induction takeString cs generalizing written rest with
  | case1 => simp at h
  | case2 => simp_all
  | case3 a b c d cs ih =>
    obtain ⟨_, _, ⟨_, _⟩, hs, he⟩ := by simpa only [Option.bind_eq_bind, Option.bind_eq_some_iff] using h
    have := ih hs
    cases he
    simp only [List.length_cons]
    omega
  | case4 letter cs _ ih =>
    obtain ⟨_, _, ⟨_, _⟩, hs, he⟩ := by simpa only [Option.bind_eq_bind, Option.bind_eq_some_iff] using h
    have := ih hs
    cases he
    simp only [List.length_cons]
    omega
  | case5 => simp_all
  | case6 c cs _ _ _ _ ih =>
    obtain ⟨⟨_, _⟩, hs, he⟩ := by simpa only [Option.bind_eq_bind, Option.bind_eq_some_iff] using h
    have := ih hs
    cases he
    exact Nat.lt_succ_of_lt this

/-- The characters of numbers. -/
def isNumberChar (c : Char) : Bool :=
  c.isDigit || c == '-' || c == '+' || c == '.' || c == 'e' || c == 'E'

/-- One digit or more. -/
def isDigits (cs : List Char) : Bool :=
  !cs.isEmpty && cs.all Char.isDigit

/-- Whether the text is an exponent or nothing. -/
def isExponent : List Char → Bool
  | [] => true
  | e :: rest =>
    (e == 'e' || e == 'E') &&
      match rest with
      | '+' :: digits => isDigits digits
      | '-' :: digits => isDigits digits
      | digits => isDigits digits

/-- Whether the text is a fraction or nothing, and then an exponent or nothing. -/
def isFraction : List Char → Bool
  | '.' :: rest => isDigits (rest.takeWhile Char.isDigit) && isExponent (rest.dropWhile Char.isDigit)
  | rest => isExponent rest

/-- Whether the text is a number. Before a fraction there is a zero or a digit that is no zero followed
by any digits. -/
def isNumber (cs : List Char) : Bool :=
  let unsigned := match cs with
    | '-' :: rest => rest
    | rest => rest
  let isInteger : List Char → Bool
    | [] => false
    | ['0'] => true
    | c :: _ => c != '0'
  isInteger (unsigned.takeWhile Char.isDigit) && isFraction (unsigned.dropWhile Char.isDigit)

/-- Reads the token that begins with `c`, and returns it with the text behind it. -/
def takeToken? (c : Char) (cs : List Char) : Option (Token × List Char) :=
  match c, cs with
  | '[', rest => some (.openBracket, rest)
  | ']', rest => some (.closeBracket, rest)
  | '\x7b', rest => some (.openBrace, rest)
  | '\x7d', rest => some (.closeBrace, rest)
  | ',', rest => some (.comma, rest)
  | ':', rest => some (.colon, rest)
  | '"', rest => (takeString rest).map fun (written, rest) => (.string written, rest)
  | 'n', 'u' :: 'l' :: 'l' :: rest => some (.scalar .null, rest)
  | 't', 'r' :: 'u' :: 'e' :: rest => some (.scalar (.bool true), rest)
  | 'f', 'a' :: 'l' :: 's' :: 'e' :: rest => some (.scalar (.bool false), rest)
  | c, rest =>
    if isNumber (c :: rest.takeWhile isNumberChar) then
      some (.scalar (.number (c :: rest.takeWhile isNumberChar)), rest.dropWhile isNumberChar)
    else none

theorem length_le_of_takeToken? {c : Char} {cs rest : List Char} {token : Token}
    (h : takeToken? c cs = some (token, rest)) : rest.length ≤ cs.length := by
  unfold takeToken? at h
  split at h
  case h_7 =>
    obtain ⟨⟨_, _⟩, hs, he⟩ := Option.map_eq_some_iff.mp h
    cases he
    exact Nat.le_of_lt (length_lt_of_takeString hs)
  case h_11 =>
    split at h
    · cases h
      exact (List.dropWhile_suffix _).length_le
    · cases h
  all_goals
    cases h
    grind

/-- Splits a text into tokens. -/
def tokens? : List Char → Option (List Token)
  | [] => some []
  | c :: cs =>
    if isBlank c then tokens? cs
    else
      match _h : takeToken? c cs with
      | none => none
      | some (token, rest) => (token :: ·) <$> tokens? rest
termination_by cs => cs.length
decreasing_by
  · exact Nat.lt_succ_self _
  · exact Nat.lt_succ_of_le (length_le_of_takeToken? _h)

/-- An array or an object whose end has not been read yet, with what it holds so far, last first. -/
inductive Frame where
  | array (items : List Value)
  /-- The member with this key is being read. -/
  | object (members : List (List Char × Value)) (key : List Char)

mutual

/-- Reads tokens where a value must begin. The frames are those the value stands in, innermost first. -/
def readValue (frames : List Frame) : List Token → Option Value
  | .scalar v :: rest => readAfter frames v rest
  | .string written :: rest => readAfter frames (.string written) rest
  | .openBracket :: .closeBracket :: rest => readAfter frames (.array []) rest
  | .openBracket :: rest => readValue (.array [] :: frames) rest
  | .openBrace :: .closeBrace :: rest => readAfter frames (.object []) rest
  | .openBrace :: .string key :: .colon :: rest => readValue (.object [] key :: frames) rest
  | _ => none

/-- Reads tokens behind a value: the value goes on with the frame that it stands in, ends the frame, or is
the whole text. -/
def readAfter (frames : List Frame) (v : Value) : List Token → Option Value
  | [] =>
    match frames with
    | [] => some v
    | _ :: _ => none
  | .comma :: .string key :: .colon :: rest =>
    match frames with
    | .object members k :: frames => readValue (.object ((k, v) :: members) key :: frames) rest
    | _ => none
  | .comma :: rest =>
    match frames with
    | .array items :: frames => readValue (.array (v :: items) :: frames) rest
    | _ => none
  | .closeBracket :: rest =>
    match frames with
    | .array items :: frames => readAfter frames (.array (v :: items).reverse) rest
    | _ => none
  | .closeBrace :: rest =>
    match frames with
    | .object members k :: frames => readAfter frames (.object ((k, v) :: members).reverse) rest
    | _ => none
  | _ => none

end

/-- Reads a text that is one JSON value with blanks around its tokens. -/
def read? (cs : List Char) : Option Value := do
  readValue [] (← tokens? cs)

end Bracketed.Json
