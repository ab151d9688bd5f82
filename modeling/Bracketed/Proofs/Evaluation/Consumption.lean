import Bracketed.Proofs.Evaluation.Outcome
import Bracketed.Proofs.Scan.Parse

namespace Bracketed

variable {T : Type} {operators : List (Operator T)} {a : Associativity}

/-- Operands and operators that are read from a scanned text account for all its characters but the
padding between them. -/
theorem Vocabulary.Scans.extent_of_reads {v : Vocabulary} {enclosing : Option Grouping} {b : Boundary}
    {position padding : Nat} {text rest : List Char} {f : Forest}
    (h : v.Scans enclosing b position text rest padding f)
    (hv : v.operators = operators.map Operator.token) :
    (∀ first x tail, f.Reads operators a first x tail → (Term.nest a x tail).extent + padding = text.length) ∧
    (∀ first tail, f.Continues operators a first tail →
      ∀ x, (Term.nest a x tail).extent + padding = x.extent + text.length) := by
  induction h with
  | stop enclosing position rest =>
    refine ⟨?_, ?_⟩
    · intro first x tail hreads
      cases hreads
    · intro first tail hcontinues x
      cases hcontinues
      rw [Term.nest_nil]
      rfl
  | blanks hpasses hblank htoken ih =>
    rw [List.length_append]
    refine ⟨?_, ?_⟩
    · intro first x tail hreads
      have hlength := ih.1 first x tail hreads
      omega
    · intro first tail hcontinues x
      have hlength := ih.2 first tail hcontinues x
      omega
  | value hpasses hlead hword htrail htoken ih =>
    refine ⟨?_, ?_⟩
    · intro first x tail hreads
      cases hreads with
      | value htail =>
        rw [ih.2 _ _ htail]
        exact List.length_append.symm
    · intro first tail hcontinues x
      cases hcontinues
  | @operator enclosing position index token text rest padding f hfinds hrun ih =>
    have htoken : (operators.map Operator.token)[index]? = some token := by
      rw [← hv]
      exact hfinds.spec.1
    rw [List.length_append, String.length_toList]
    refine ⟨?_, ?_⟩
    · intro first x tail hreads
      cases hreads with
      | unary hop hrest =>
        rw [List.getElem?_map, hop] at htoken
        cases htoken
        have hlength := ih.1 _ _ _ hrest
        rw [Term.extent_nest] at hlength ⊢
        rw [Term.extent]
        dsimp only
        omega
    · intro first tail hcontinues x
      cases hcontinues with
      | binary hop hrest =>
        rw [List.getElem?_map, hop] at htoken
        cases htoken
        have hlength := ih.1 _ _ _ hrest
        rw [Term.extent_nest] at hlength ⊢
        rw [List.map_cons, List.sum_cons]
        dsimp only
        omega
  | @group enclosing position stop inner padding g inside text rest content f hopening hcontent hclosing hstop
      hrun ihc ihr =>
    refine ⟨?_, ?_⟩
    · intro first x tail hreads
      cases hreads with
      | group hinner htail =>
        have hlength := ihc.1 _ _ _ hinner
        rw [ihr.2 _ _ htail, Term.extent, Grouping.delimiterLength]
        simp only [List.length_append, String.length_toList]
        omega
    · intro first tail hcontinues x
      cases hcontinues

/-- A text that evaluates is accounted for down to its last character. -/
theorem Parser.consumed_eq_length {p : Parser T} {source : String} {e : Expression T}
    (h : p.parse source = .ok e) {leaf : String → T} {r : Resolved T} (hr : e.evaluateWith leaf = .ok r) :
    r.consumed = source.length := by
  obtain ⟨_, hscans, _, hoperators, _⟩ := parse_spec h
  have hv : p.vocabulary.operators = e.operators.map Operator.token := by
    rw [hoperators]
    rfl
  obtain ⟨x, tail, hreads⟩ := Expression.exists_reads_of_evaluateWith hr
  rw [Expression.evaluateWith_of_reads hreads] at hr
  cases hr
  rw [(hscans.extent_of_reads hv).1 1 x tail hreads, String.length_toList]

theorem Parser.consumed_eq_length_bracketing :
    bracketing.parse "a - b - (~c)" = .ok bracketed ∧
      bracketed.evaluateWith id = .ok ⟨"[[a-b]-~c]", 12⟩ ∧ 12 = "a - b - (~c)".length := by
  exact ⟨parse_bracketing, evaluateWith_bracketed, consumed_eq_length parse_bracketing evaluateWith_bracketed⟩

end Bracketed
