namespace Bracketed.Text

/-- Whether a text stands somewhere in another one. -/
def occursIn (word : List Char) : List Char → Bool
  | [] => word.isEmpty
  | c :: cs => word.isPrefixOf (c :: cs) || occursIn word cs

theorem occursIn_iff_isInfix {word target : List Char} : occursIn word target = true ↔ word <:+: target := by
  induction target with
  | nil => simp [occursIn]
  | cons c cs ih => simp [occursIn, ih, List.infix_cons_iff, List.isPrefixOf_iff_prefix]

end Bracketed.Text
