import Bracketed.Associativity
import Bracketed.Grouping
import Bracketed.Settings.Reading

namespace Bracketed

/-- The tokens of the operators of search queries. -/
structure SearchOperators where
  conjunction : String
  disjunction : String
  negation : String
  deriving DecidableEq

/-- How search queries are written and how words are compared with a target. -/
structure SearchSettings where
  associativity : Associativity
  caseSensitive : Bool
  operators : SearchOperators
  groupings : List Grouping
  deriving DecidableEq

namespace SearchSettings

/-- The settings that hold unless a layer says otherwise. -/
def default : SearchSettings where
  associativity := .left
  caseSensitive := true
  operators := { conjunction := "&&", disjunction := "||", negation := "!" }
  groupings := [{ opening := "(", closing := ")" }]

instance : Inhabited SearchSettings := ⟨default⟩

/-- Settings as a table of values. -/
def toTable (s : SearchSettings) : List (String × Setting) :=
  let grouping (g : Grouping) : Setting := .table [("start", .text g.opening), ("end", .text g.closing)]
  [("associativity", .text s.associativity.word),
    ("case_sensitive", .bool s.caseSensitive),
    ("operators", .table [
      ("and", .text s.operators.conjunction),
      ("or", .text s.operators.disjunction),
      ("not", .text s.operators.negation)]),
    ("groupings", .array (s.groupings.map grouping))]

open Setting

def readAssociativity : Setting → Except SettingsError Associativity :=
  readVariant "Associativity" [(Associativity.right.word, .right), (Associativity.left.word, .left)]

def readOperators (s : Setting) : Except SettingsError SearchOperators := do
  let r ← readRecord "SearchOperators" 3 s
  let conjunction ← r.part? 0 "and" readText
  let disjunction ← r.part? 1 "or" readText
  let negation ← r.part? 2 "not" readText
  return {
    conjunction := ← demand "and" conjunction
    disjunction := ← demand "or" disjunction
    negation := ← demand "not" negation }

def readGrouping (s : Setting) : Except SettingsError Grouping := do
  let r ← readRecord "Grouping" 2 s
  let opening ← r.part? 0 "start" readText
  let closing ← r.part? 1 "end" readText
  return { opening := ← demand "start" opening, closing := ← demand "end" closing }

/-- Reads settings from a table of values. A value that is there but of no use is reported before one
that is not there; names that are no settings are passed over. -/
def ofTable (entries : List (String × Setting)) : Except SettingsError SearchSettings := do
  let r := Record.named entries
  let associativity ← r.part? 0 "associativity" readAssociativity
  let caseSensitive ← r.part? 1 "case_sensitive" readBool
  let operators ← r.part? 2 "operators" readOperators
  let groupings ← r.part? 3 "groupings" (readList readGrouping)
  return {
    associativity := ← demand "associativity" associativity
    caseSensitive := ← demand "case_sensitive" caseSensitive
    operators := ← demand "operators" operators
    groupings := ← demand "groupings" groupings }

end SearchSettings

end Bracketed
