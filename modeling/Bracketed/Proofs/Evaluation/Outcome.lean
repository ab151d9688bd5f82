import Bracketed.Proofs.Evaluation.Reading
import Bracketed.Proofs.Scan.Parse

namespace Bracketed

variable {T : Type}

namespace Expression

variable {e : Expression T}

/-- If the siblings at the top can be read as operands with binary operators between them, evaluation does
what that of the nested tree does, and adds the blanks outside all values and groups. -/
theorem run_of_reads {x : Term T} {tail : List (BinaryUse T × Term T)}
    (h : e.content.Reads e.operators e.associativity 1 x tail) (leaf : String → T) :
    e.run leaf = (do
      let r ← (Term.nest e.associativity x tail).run leaf
      return ⟨r.value, r.consumed + e.padding⟩) := by
  obtain ⟨htake, hfrom⟩ := (Forest.fold_items ⟨e.operators, leaf, e.associativity⟩ e.content).1 1 x tail h
  rw [run]
  dsimp only [rootId]
  rw [Item.fold_of_takeOperand htake, hfrom, Term.orAt_run]

theorem evaluateWith_of_reads {x : Term T} {tail : List (BinaryUse T × Term T)}
    (h : e.content.Reads e.operators e.associativity 1 x tail) (leaf : String → T) :
    e.evaluateWith leaf = .ok ⟨(Term.nest e.associativity x tail).value leaf,
      (Term.nest e.associativity x tail).extent + e.padding⟩ := by
  rw [evaluateWith, run_of_reads h, Run.bind_eq_ok_iff]
  exact ⟨_, Term.result_run leaf _, rfl⟩

theorem exists_reads_of_evaluateWith {leaf : String → T} {r : Resolved T} (h : e.evaluateWith leaf = .ok r) :
    ∃ x tail, e.content.Reads e.operators e.associativity 1 x tail := by
  rw [evaluateWith, run, Run.bind_eq_ok_iff] at h
  obtain ⟨s, hfold, _⟩ := h
  obtain ⟨t, htake, hfrom⟩ := Item.takeOperand_of_fold (Run.orAt_eq_ok_iff.mp hfold)
  have hreads := (Forest.exists_reads_of_items ⟨e.operators, leaf, e.associativity⟩ e.content).1 1
  exact hreads ⟨t, htake⟩ ⟨t, s, hfrom⟩

end Expression

namespace Parser

/-- The value of a text that evaluates is that of the tree in which every group's operands are nested the
way the parser's associativity says, evaluated from its leaves upwards. The groups can always be read as
such operands, and there is no other reading with another value. -/
theorem value_eq_nest {p : Parser T} {source : String} {e : Expression T} (h : p.parse source = .ok e)
    {leaf : String → T} {r : Resolved T} (hr : e.evaluateWith leaf = .ok r) :
    (∃ x tail, e.content.Reads p.operators p.associativity 1 x tail) ∧
    ∀ x tail, e.content.Reads p.operators p.associativity 1 x tail →
      r.value = (Term.nest p.associativity x tail).value leaf := by
  obtain ⟨_, _, _, hoperators, hassociativity⟩ := parse_spec h
  rw [← hoperators, ← hassociativity]
  refine ⟨Expression.exists_reads_of_evaluateWith hr, ?_⟩
  intro x tail hreads
  rw [Expression.evaluateWith_of_reads hreads] at hr
  cases hr
  rfl

theorem value_eq_nest_bracketing :
    bracketing.parse "a - b - (~c)" = .ok bracketed ∧
      bracketed.evaluateWith id = .ok ⟨"[[a-b]-~c]", 12⟩ ∧
      (∃ x tail, bracketed.content.Reads bracketing.operators .left 1 x tail) ∧
      ∀ x tail, bracketed.content.Reads bracketing.operators .left 1 x tail →
        "[[a-b]-~c]" = (Term.nest .left x tail).value id := by
  exact ⟨parse_bracketing, evaluateWith_bracketed, value_eq_nest parse_bracketing evaluateWith_bracketed⟩

end Parser

end Bracketed
