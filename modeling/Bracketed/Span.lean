namespace Bracketed

/-- A range of characters of the source, from `start` up to but not including `stop`. All positions
count characters, never bytes. -/
structure Span where
  start : Nat
  stop : Nat
  deriving DecidableEq, Inhabited

namespace Span

def length (s : Span) : Nat :=
  s.stop - s.start

/-- The two ends with two dots between them. -/
def text (s : Span) : String :=
  toString s.start ++ ".." ++ toString s.stop

end Span

end Bracketed
