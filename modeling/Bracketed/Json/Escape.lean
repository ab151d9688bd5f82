import Bracketed.Text.Numeral

namespace Bracketed.Json

/-- One character as it is written inside a string. Quotes, backslashes and control characters are
escaped, and nothing else is. -/
def escapeChar (c : Char) : List Char :=
  if c = '"' then ['\\', '"']
  else if c = '\\' then ['\\', '\\']
  else if c = '\x08' then ['\\', 'b']
  else if c = '\x0c' then ['\\', 'f']
  else if c = '\n' then ['\\', 'n']
  else if c = '\r' then ['\\', 'r']
  else if c = '\t' then ['\\', 't']
  else if c.toNat < 0x20 then ['\\', 'u', '0', '0', Nat.digitChar (c.toNat / 16), Nat.digitChar (c.toNat % 16)]
  else [c]

/-- A text as it is written inside a string. -/
def escape (s : List Char) : List Char :=
  s.flatMap escapeChar

/-- The character that a backslash and this letter stand for. -/
def escapedBy? (letter : Char) : Option Char :=
  if letter = '"' then some '"'
  else if letter = '\\' then some '\\'
  else if letter = '/' then some '/'
  else if letter = 'b' then some '\x08'
  else if letter = 'f' then some '\x0c'
  else if letter = 'n' then some '\n'
  else if letter = 'r' then some '\r'
  else if letter = 't' then some '\t'
  else none

/-- The number written with four hexadecimal digits. -/
def hexQuad? (a b c d : Char) : Option Nat :=
  Text.numeral? 16 [a, b, c, d]

/-- The two halves of a surrogate pair as one code point. -/
def joinSurrogates (high low : Nat) : Nat :=
  0x10000 + (high - 0xD800) * 0x400 + (low - 0xDC00)

/-- The text that a written string stands for. There is none if an escape is unknown, or if one names half
of a surrogate pair without the other half following it. -/
def unescape? : List Char → Option (List Char)
  | [] => some []
  | '\\' :: 'u' :: a :: b :: c :: d :: rest => do
    let code ← hexQuad? a b c d
    if code < 0xD800 ∨ 0xDFFF < code then
      return Char.ofNat code :: (← unescape? rest)
    else if 0xDC00 ≤ code then none
    else
      match rest with
      | '\\' :: 'u' :: a :: b :: c :: d :: rest =>
        let low ← hexQuad? a b c d
        if 0xDC00 ≤ low ∧ low ≤ 0xDFFF then
          return Char.ofNat (joinSurrogates code low) :: (← unescape? rest)
        else none
      | _ => none
  | '\\' :: letter :: rest => do
    return (← escapedBy? letter) :: (← unescape? rest)
  | c :: rest => do
    return c :: (← unescape? rest)

end Bracketed.Json
