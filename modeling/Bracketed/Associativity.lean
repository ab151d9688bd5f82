namespace Bracketed

/-- What a binary operator takes as its right operand. Under `right` it takes everything to its
right, so `a - b - c` means `a - (b - c)`; under `left` it takes only its neighbour, so the same
text means `(a - b) - c`. There is no other precedence than nesting. -/
inductive Associativity where
  | right
  | left
  deriving DecidableEq

/-- Operators associate to the right unless the caller says otherwise. -/
instance : Inhabited Associativity := ⟨.right⟩

/-- The lower-case word for an associativity, as settings spell it. -/
def Associativity.word : Associativity → String
  | .right => "right"
  | .left => "left"

end Bracketed
