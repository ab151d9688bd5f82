import Bracketed.Proofs.Evaluation.Outcome
import Bracketed.Proofs.Grammar
import Bracketed.Proofs.Scan.Parse

namespace Bracketed

variable {T : Type}

/-- Whether an expression evaluates does not depend on what its values mean: its groups must be phrases. -/
theorem Expression.exists_evaluateWith_iff {e : Expression T} {leaf : String → T} :
    (∃ r, e.evaluateWith leaf = .ok r) ↔
      ∀ g, .group g ∈ e.nodes → g.IsGrammatical e.operators e.nodes := by
  rw [← e.exists_reads_iff e.associativity]
  constructor
  · rintro ⟨r, h⟩
    exact exists_reads_of_evaluateWith h
  · rintro ⟨x, tail, h⟩
    exact ⟨_, evaluateWith_of_reads h leaf⟩

/-- A text that parses evaluates exactly if the children of every group, the root included, are operands
with a binary operator between any two of them, where an operand is a value or a group behind any number
of unary operators. So the same texts evaluate under both associativities. -/
theorem Parser.evaluates_iff_isGrammatical {p : Parser T} {source : String} {e : Expression T}
    (h : p.parse source = .ok e) (leaf : String → T) :
    ((∃ r, e.evaluateWith leaf = .ok r) ↔
      ∀ g, .group g ∈ e.nodes → g.IsGrammatical p.operators e.nodes) ∧
    ∀ a, ∃ e', (p.associating a).parse source = .ok e' ∧
      ((∃ r, e'.evaluateWith leaf = .ok r) ↔ ∃ r, e.evaluateWith leaf = .ok r) := by
  obtain ⟨_, _, _, hoperators, _⟩ := parse_spec h
  refine ⟨?_, ?_⟩
  · rw [← hoperators]
    exact Expression.exists_evaluateWith_iff
  · intro a
    refine ⟨_, parse_associating h a, ?_⟩
    rw [Expression.exists_evaluateWith_iff, Expression.exists_evaluateWith_iff]
    exact Iff.rfl

theorem Parser.evaluates_iff_isGrammatical_bracketing :
    bracketing.parse "a - b - (~c)" = .ok bracketed ∧
      ((∃ r, bracketed.evaluateWith id = .ok r) ↔
        ∀ g, .group g ∈ bracketed.nodes → g.IsGrammatical bracketing.operators bracketed.nodes) ∧
      ∀ a, ∃ e', (bracketing.associating a).parse "a - b - (~c)" = .ok e' ∧
        ((∃ r, e'.evaluateWith id = .ok r) ↔ ∃ r, bracketed.evaluateWith id = .ok r) :=
  ⟨parse_bracketing, evaluates_iff_isGrammatical parse_bracketing id⟩

end Bracketed
