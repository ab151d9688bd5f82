import Bracketed.Evaluation.Reduction
import Bracketed.Parser
import Bracketed.Proofs.Scan.OfTokens

namespace Bracketed

variable {T : Type}

/-- Reading a whole text as tokens and putting these together scans the text outside all groups. -/
theorem Vocabulary.scans_root {v : Vocabulary} (hv : v.Valid) {cs : List Char} {tokens : List Token}
    (h : v.tokens cs = .ok tokens) :
    v.Scans none .run 0 cs [] (Level.root tokens).padding (Level.root tokens).forest := by
  obtain ⟨_, hopen, _⟩ := Level.nested_ofTokens hv (by simp) h
  exact hopen.flush.2

namespace Parser

variable {p : Parser T} {source : String} {e : Expression T}

/-- A text parses exactly if the vocabulary passes its check and the text can be read as tokens. Everything
in the expression but its tree comes from the parser. -/
theorem parseWith_eq_ok_iff {leaf : String → T} :
    p.parseWith leaf source = .ok e ↔ p.vocabulary.check = .ok () ∧
      ∃ tokens, p.vocabulary.tokens source.toList = .ok tokens ∧
        e = ⟨source, (Level.root tokens).padding, (Level.root tokens).forest, p.operators, leaf,
          p.associativity⟩ := by
  rw [parseWith]
  cases hcheck : p.vocabulary.check with
  | error err => simp [Bind.bind, Except.bind]
  | ok _ =>
    cases htokens : p.vocabulary.tokens source.toList with
    | error err => simp [Bind.bind, Except.bind]
    | ok tokens =>
      simp only [Bind.bind, Except.bind, Pure.pure, Except.pure, Except.ok.injEq, true_and, exists_eq_left']
      exact eq_comm

theorem parse_eq_error_iff (hcheck : p.vocabulary.check = .ok ()) {err : ParseError} :
    p.parse source = .error err ↔ p.vocabulary.tokens source.toList = .error err := by
  rw [parse, parseWith, hcheck]
  cases p.vocabulary.tokens source.toList with
  | error e => simp [Bind.bind, Except.bind]
  | ok tokens => simp [Bind.bind, Except.bind, Pure.pure, Except.pure]

/-- An error that has a position does not come from the vocabulary's check. -/
theorem check_of_parse_error {err : ParseError} (h : p.parse source = .error err) (hindex : err.index ≠ none) :
    p.vocabulary.check = .ok () := by
  rw [parse, parseWith] at h
  cases hcheck : p.vocabulary.check with
  | ok _ => rfl
  | error e =>
    rw [hcheck] at h
    cases h
    obtain ⟨what, rfl⟩ := Vocabulary.exists_of_check_eq_error hcheck
    exact absurd rfl hindex

/-- The expression of a text that parses is what the text is scanned as. -/
theorem parse_spec (h : p.parse source = .ok e) :
    p.vocabulary.Valid ∧ p.vocabulary.Scans none .run 0 source.toList [] e.padding e.content ∧
      e.source = source ∧ e.operators = p.operators ∧ e.associativity = p.associativity := by
  rw [parse, parseWith_eq_ok_iff] at h
  obtain ⟨hcheck, tokens, htokens, rfl⟩ := h
  have hvalid := Vocabulary.valid_of_check hcheck
  exact ⟨hvalid, Vocabulary.scans_root hvalid htokens, rfl, rfl, rfl⟩

theorem leaf_of_parse (h : p.parse source = .ok e) : e.leaf = p.leaf := by
  rw [parse, parseWith_eq_ok_iff] at h
  obtain ⟨_, _, _, rfl⟩ := h
  rfl

/-- Associativity plays no part before evaluation. -/
theorem parse_associating_eq_map (p : Parser T) (a : Associativity) (source : String) :
    (p.associating a).parse source = (p.parse source).map fun e => { e with associativity := a } := by
  have hvocabulary : (p.associating a).vocabulary = p.vocabulary := rfl
  rw [parse, parse, parseWith, parseWith, hvocabulary]
  cases p.vocabulary.check with
  | error err => rfl
  | ok _ => cases p.vocabulary.tokens source.toList <;> rfl

theorem parse_associating (h : p.parse source = .ok e) (a : Associativity) :
    (p.associating a).parse source = .ok { e with associativity := a } := by
  rw [parse_associating_eq_map, h]
  rfl

/-- A parser whose results show in brackets how operands were put together. -/
def bracketing : Parser String :=
  ((new.unary "~" fun x => "~" ++ x).binary "-" fun x y => "[" ++ x ++ "-" ++ y ++ "]").grouping "(" ")"
    |>.associating .left

/-- What it reads `a - b - (~c)` as. -/
def bracketed : Expression String where
  source := "a - b - (~c)"
  padding := 1
  content :=
    .value ⟨"a", 2, ⟨0, 1⟩⟩ <| .operator ⟨1, ⟨2, 3⟩⟩ <| .value ⟨"b", 3, ⟨4, 5⟩⟩ <| .operator ⟨1, ⟨6, 7⟩⟩ <|
      .group ⟨⟨"(", ")"⟩, ⟨8, 12⟩, 0⟩ (.operator ⟨0, ⟨9, 10⟩⟩ <| .value ⟨"c", 1, ⟨10, 11⟩⟩ .nil) .nil
  operators := bracketing.operators
  leaf := id
  associativity := .left

theorem parse_bracketing : bracketing.parse "a - b - (~c)" = .ok bracketed := by
  with_unfolding_all rfl

theorem evaluateWith_bracketed : bracketed.evaluateWith id = .ok ⟨"[[a-b]-~c]", 12⟩ := by
  with_unfolding_all rfl

end Parser

end Bracketed
