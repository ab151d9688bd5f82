import Bracketed.Expression
import Bracketed.Forest.OfTokens
import Bracketed.Token.Lexer

namespace Bracketed

/-- What a caller wants to have read: operators and groupings in the order in which they are tried, the
meaning of values, and the associativity of flat runs. Reading applies none of the functions. -/
structure Parser (T : Type) where
  operators : List (Operator T) := []
  groupings : List Grouping := []
  leaf : String → T
  associativity : Associativity := default

namespace Parser

variable {T : Type}

/-- A parser that knows no tokens yet and gives values their meaning by `leaf`. -/
def withLeaf (leaf : String → T) : Parser T :=
  { leaf }

/-- A parser that knows no tokens yet and takes every value for its own text. -/
def new : Parser String :=
  withLeaf id

/-- Registers one more operator, to be tried after the others. -/
def operator (p : Parser T) (op : Operator T) : Parser T :=
  { p with operators := p.operators ++ [op] }

def unary (p : Parser T) (token : String) (f : T → T) : Parser T :=
  p.operator { token, combine := .unary f }

def binary (p : Parser T) (token : String) (f : T → T → T) : Parser T :=
  p.operator { token, combine := .binary f }

/-- Registers one more grouping, to be tried after the others. -/
def grouping (p : Parser T) (opening closing : String) : Parser T :=
  { p with groupings := p.groupings ++ [{ opening, closing }] }

def associating (p : Parser T) (associativity : Associativity) : Parser T :=
  { p with associativity }

/-- The tokens that the parser looks for. -/
def vocabulary (p : Parser T) : Vocabulary :=
  { operators := p.operators.map Operator.token, groupings := p.groupings }

/-- Reads a text as a tree whose values get their meaning from `leaf`. -/
def parseWith (p : Parser T) (leaf : String → T) (source : String) : Except ParseError (Expression T) := do
  p.vocabulary.check
  let tokens ← p.vocabulary.tokens source.toList
  let root := Level.root tokens
  return {
    source
    padding := root.padding
    content := root.forest
    operators := p.operators
    leaf
    associativity := p.associativity }

/-- Reads a text as a tree whose values get their meaning from the parser's own leaf function. -/
def parse (p : Parser T) (source : String) : Except ParseError (Expression T) :=
  p.parseWith p.leaf source

end Parser

end Bracketed
