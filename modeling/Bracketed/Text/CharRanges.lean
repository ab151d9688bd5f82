namespace Bracketed.Text

/-- A set of characters as ranges of code points, both ends included, in ascending order. -/
abbrev CharRanges := List (Nat × Nat)

namespace CharRanges

/-- Whether the code point lies in one of the ranges. The search stops at the first range that
begins beyond it. -/
def containsCode : CharRanges → Nat → Bool
  | [], _ => false
  | (first, last) :: rest, n => if n < first then false else n ≤ last || containsCode rest n

/-- Whether the character lies in one of the ranges. -/
def contains (ranges : CharRanges) (c : Char) : Bool :=
  ranges.containsCode c.toNat

end CharRanges

end Bracketed.Text
