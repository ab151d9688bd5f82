import Bracketed.Text.Lowercase.Cased
import Bracketed.Text.Lowercase.Mapping

namespace Bracketed.Text

/-- The lower-case form of a character by itself. Only a capital I with a dot above has a form of two
characters. -/
def lowerChar (c : Char) : List Char :=
  if c = '\u0130' then ['i', '\u0307']
  else
    match caseRuns.find? fun run => run.contains c.toNat with
    | none => [c]
    | some run => [Char.ofNat (c.toNat + run.distance).toNat]

/-- Whether the first character that is not passed over belongs to a word with cases. -/
def beginsCased (cs : List Char) : Bool :=
  match cs.dropWhile caseIgnorable.contains with
  | [] => false
  | c :: _ => cased.contains c

/-- Whether a capital sigma between the texts `before`, given from right to left, and `after` ends a
word. -/
def endsWord (before after : List Char) : Bool :=
  beginsCased before && !beginsCased after

/-- The lower-case form of a text that follows the text `before`, given from right to left. -/
def lowerAfter (before : List Char) : List Char → List Char
  | [] => []
  | c :: cs =>
    let lower := if c = 'Σ' then [if endsWord before cs then 'ς' else 'σ'] else lowerChar c
    lower ++ lowerAfter (c :: before) cs

/-- The lower-case form of a text. All characters are mapped by themselves but for a capital sigma,
which has another form at the end of a word. -/
def lowercase (s : String) : String :=
  String.ofList (lowerAfter [] s.toList)

end Bracketed.Text
