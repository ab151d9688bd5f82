import Bracketed.Error
import Bracketed.Evaluation.Reduction
import Bracketed.Parser
import Bracketed.Search.Settings
import Bracketed.Text.Lowercase
import Bracketed.Text.Occurs

namespace Bracketed

/-- The parser of search queries. Words are false until a target is known. -/
def SearchSettings.parser (s : SearchSettings) : Parser Bool where
  operators := [
    { token := s.operators.conjunction, combine := .binary and },
    { token := s.operators.disjunction, combine := .binary or },
    { token := s.operators.negation, combine := .unary not }]
  groupings := s.groupings
  leaf _ := false
  associativity := s.associativity

/-- A search query that has been read, and how its words are compared with a target. -/
structure Query where
  expression : Expression Bool
  caseSensitive : Bool

namespace Query

def compile (query : String) (s : SearchSettings) : Except ParseError Query := do
  return { expression := ← s.parser.parse query, caseSensitive := s.caseSensitive }

/-- Whether a word of the query occurs in a target. -/
def wordOccurs (caseSensitive : Bool) (target word : String) : Bool :=
  if caseSensitive then Text.occursIn word.toList target.toList
  else Text.occursIn (Text.lowercase word).toList (Text.lowercase target).toList

/-- Whether a target fits the query: a word stands for its occurrence in the target. -/
def fits (q : Query) (target : String) : Except EvalError Bool :=
  (q.expression.evaluateWith (wordOccurs q.caseSensitive target)).map Resolved.value

/-- Whether a target fits a query that is written with the default settings. -/
def fitsDefault (query target : String) : Except Error Bool := do
  let q ← (compile query default).mapError .parse
  (q.fits target).mapError .eval

end Query

end Bracketed
