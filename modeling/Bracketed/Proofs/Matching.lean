import Bracketed.Forest
import Bracketed.Text.Blank
import Bracketed.Token.Lexer

namespace Bracketed

/-- What stands at a place of a text, whatever groups are open there. -/
inductive Lexeme where
  | opening (g : Grouping)
  | closing (delimiter : String)
  | operator (index : Nat) (text : String)
  | char (c : Char)
  deriving DecidableEq

def Lexeme.length : Lexeme → Nat
  | opening g => g.opening.length
  | closing delimiter => delimiter.length
  | operator _ text => text.length
  | char _ => 1

namespace Vocabulary

/-- The lexeme at the left end of the text `c :: cs`: the first start delimiter that stands there, or else the
end delimiter, or else the first operator, or else a character. -/
def lexemeAt (v : Vocabulary) (c : Char) (cs : List Char) : Lexeme :=
  match v.opening? (c :: cs) with
  | some g => .opening g
  | none =>
    match v.closing? (c :: cs) with
    | some g => .closing g.closing
    | none =>
      match v.operator? (c :: cs) with
      | some (text, index) => .operator index text
      | none => .char c

/-- Cuts a whole text into lexemes. One of the empty text is taken to cover one character. -/
def lexemes (v : Vocabulary) : List Char → List Lexeme
  | [] => []
  | c :: cs => v.lexemeAt c cs :: v.lexemes (cs.drop ((v.lexemeAt c cs).length - 1))
termination_by cs => cs.length
decreasing_by
  rw [List.length_drop, List.length_cons]
  exact Nat.lt_succ_of_le (Nat.sub_le _ _)

end Vocabulary

/-- The siblings of `f` and behind them those of another forest. -/
def Forest.append (f behind : Forest) : Forest :=
  match f with
  | nil => behind
  | value v rest => value v (rest.append behind)
  | operator o rest => operator o (rest.append behind)
  | group e content rest => group e content (rest.append behind)

/-- What a group holds: the blanks that belong to no value, and the nodes. -/
structure Content where
  padding : Nat
  forest : Forest

namespace Content

def empty : Content :=
  ⟨0, .nil⟩

/-- Puts nodes behind those that are there. -/
def append (c : Content) (f : Forest) : Content :=
  { c with forest := c.forest.append f }

/-- Ends a run of characters that begins at `start`. Trimmed of blanks it becomes a value; if it is all
blank, it is padding. -/
def appendRun (c : Content) (start : Nat) (run : List Char) : Content :=
  if run.all Text.isBlank then { c with padding := c.padding + run.length }
  else
    let text := Text.trim run
    let first := start + Text.leadingBlanks run
    c.append (.value ⟨String.ofList text, run.length, ⟨first, first + text.length⟩⟩ .nil)

end Content

/-- A group whose end has not been reached. -/
structure OpenGroup where
  grouping : Grouping
  /-- Where its start delimiter stands. -/
  start : Nat
  /-- What stands to the left of it in the group around it. -/
  around : Content

/-- Matches start and end delimiters from left to right. -/
structure Matcher where
  /-- Where the last token ends. -/
  start : Nat
  /-- The characters behind that token. -/
  run : List Char
  /-- What the innermost open group holds up to that token. -/
  content : Content
  /-- The open groups, innermost first. -/
  opened : List OpenGroup

namespace Matcher

/-- A matcher at the beginning of a text. -/
def atStart : Matcher :=
  { start := 0, run := [], content := .empty, opened := [] }

def position (m : Matcher) : Nat :=
  m.start + m.run.length

/-- What the innermost open group holds up to here. -/
def flush (m : Matcher) : Content :=
  m.content.appendRun m.start m.run

def pushChar (m : Matcher) (c : Char) : Matcher :=
  { m with run := m.run ++ [c] }

def pushOperator (m : Matcher) (index : Nat) (text : String) : Matcher :=
  let stop := m.position + text.length
  { m with start := stop, run := [], content := m.flush.append (.operator ⟨index, ⟨m.position, stop⟩⟩ .nil) }

/-- Opens a group. -/
def enter (m : Matcher) (g : Grouping) : Matcher :=
  let o : OpenGroup := { grouping := g, start := m.position, around := m.flush }
  { start := m.position + g.opening.length, run := [], content := .empty, opened := o :: m.opened }

/-- Closes the group `o`, around which the groups `opened` stay open. -/
def leave (m : Matcher) (o : OpenGroup) (opened : List OpenGroup) : Matcher :=
  let stop := m.position + o.grouping.closing.length
  let e : Enclosure := { grouping := o.grouping, span := ⟨o.start, stop⟩, padding := m.flush.padding }
  { start := stop, run := [], content := o.around.append (.group e m.flush.forest .nil), opened }

/-- Reads one more lexeme. An end delimiter closes the innermost open group if it is that group's own, and is
unbalanced otherwise. -/
def step (m : Matcher) : Lexeme → Except ParseError Matcher
  | .char c => .ok (m.pushChar c)
  | .operator index text => .ok (m.pushOperator index text)
  | .opening g => .ok (m.enter g)
  | .closing delimiter =>
    match m.opened with
    | [] => .error (.unbalancedEnd delimiter m.position)
    | o :: opened =>
      if o.grouping.closing = delimiter then .ok (m.leave o opened)
      else .error (.unbalancedEnd delimiter m.position)

/-- What the root holds, unless a group is left open. -/
def finish (m : Matcher) : Except ParseError Content :=
  match m.opened with
  | [] => .ok m.flush
  | o :: _ => .error (.unclosedGroup o.grouping.opening o.start)

def readAll (m : Matcher) : List Lexeme → Except ParseError Content
  | [] => m.finish
  | lexeme :: rest => do (← m.step lexeme).readAll rest

end Matcher

namespace Forest

@[simp] theorem append_nil (f : Forest) : f.append nil = f := by
  induction f <;> simp_all [append]

theorem append_assoc (f g h : Forest) : (f.append g).append h = f.append (g.append h) := by
  induction f <;> simp_all [append]

end Forest

end Bracketed
