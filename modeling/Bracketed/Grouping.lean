namespace Bracketed

/-- A pair of delimiters chosen by the caller, such as `(` and `)`. Two groupings with the same
delimiters are the same grouping. -/
structure Grouping where
  opening : String
  closing : String
  deriving DecidableEq, Inhabited

namespace Grouping

/-- The characters that both delimiters take together. -/
def delimiterLength (g : Grouping) : Nat :=
  g.opening.length + g.closing.length

/-- Both delimiters around an ellipsis, the way a group is labelled in a drawing. -/
def label (g : Grouping) : String :=
  g.opening ++ "…" ++ g.closing

end Grouping

end Bracketed
