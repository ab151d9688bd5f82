import Bracketed.ParseError
import Bracketed.Token

namespace Bracketed

/-- The tokens a caller registered, in the order of registration. That order decides which of two
matching tokens is read: the first one, not the longest. -/
structure Vocabulary where
  operators : List String
  groupings : List Grouping

namespace Vocabulary

/-- The grouping whose start delimiter stands at the left end of the text. -/
def opening? (v : Vocabulary) (cs : List Char) : Option Grouping :=
  v.groupings.find? fun g => g.opening.toList.isPrefixOf cs

/-- The grouping whose end delimiter stands at the left end of the text. -/
def closing? (v : Vocabulary) (cs : List Char) : Option Grouping :=
  v.groupings.find? fun g => g.closing.toList.isPrefixOf cs

/-- The operator that stands at the left end of the text, with its place in the registered list. -/
def operator? (v : Vocabulary) (cs : List Char) : Option (String × Nat) :=
  v.operators.zipIdx.find? fun (token, _) => token.toList.isPrefixOf cs

/-- The token at the left end of the text `c :: cs` inside the group `enclosing`, or the grouping
whose end delimiter stands there without closing that group. Start delimiters come first, then the end
delimiter of the innermost open group, then all other end delimiters, then operators; a character
belongs to a value only if none of these begins at it. -/
def tokenAt (v : Vocabulary) (enclosing : Option Grouping) (c : Char) (cs : List Char) :
    Except Grouping Token :=
  match v.opening? (c :: cs) with
  | some g => .ok (.opening g)
  | none =>
    match enclosing.filter fun g => g.closing.toList.isPrefixOf (c :: cs) with
    | some g => .ok (.closing g)
    | none =>
      match v.closing? (c :: cs) with
      | some g => .error g
      | none =>
        match v.operator? (c :: cs) with
        | some (text, index) => .ok (.operator index text)
        | none => .ok (.char c)

/-- The groups that are open after a token, innermost first, each with the position of its start
delimiter. -/
def openAfter (enclosing : List (Nat × Grouping)) (position : Nat) : Token → List (Nat × Grouping)
  | .opening g => (position, g) :: enclosing
  | .closing _ => enclosing.tail
  | .operator .. => enclosing
  | .char _ => enclosing

/-- Reads a text into tokens from left to right. `enclosing` holds the groups that are open at
`position`. A token of the empty text is taken to cover one character, so the reading ends whatever
the vocabulary is; `Vocabulary.check` refuses such tokens beforehand. -/
def tokensFrom (v : Vocabulary) (enclosing : List (Nat × Grouping)) (position : Nat) :
    List Char → Except ParseError (List Token)
  | [] =>
    match enclosing with
    | [] => .ok []
    | (start, g) :: _ => .error (.unclosedGroup g.opening start)
  | c :: cs =>
    match v.tokenAt (enclosing.head?.map Prod.snd) c cs with
    | .error g => .error (.unbalancedEnd g.closing position)
    | .ok token => do
      let rest ← v.tokensFrom (openAfter enclosing position token) (position + token.length)
        (cs.drop (token.length - 1))
      return token :: rest
termination_by cs => cs.length
decreasing_by
  rw [List.length_drop, List.length_cons]
  exact Nat.lt_succ_of_le (Nat.sub_le _ _)

/-- Reads a whole text into tokens. Every group that one of them opens is closed by a later one. -/
def tokens (v : Vocabulary) (cs : List Char) : Except ParseError (List Token) :=
  v.tokensFrom [] 0 cs

/-- Refuses tokens of the empty text, which would match at every position. Operators are looked at
before groupings. -/
def check (v : Vocabulary) : Except ParseError Unit :=
  if v.operators.any String.isEmpty then .error (.emptyToken "operator")
  else if v.groupings.any fun g => g.opening.isEmpty || g.closing.isEmpty then
    .error (.emptyToken "grouping delimiter")
  else .ok ()

end Vocabulary

end Bracketed
