import Bracketed.Proofs.Evaluation.Outline

namespace Bracketed

variable {T : Type}

/-- Of any two of the binary operators it makes no difference which one is applied first to three operands in a
row. -/
def Operator.MutuallyAssociative (operators : List (Operator T)) : Prop :=
  ∀ s f t g, ⟨s, .binary f⟩ ∈ operators → ⟨t, .binary g⟩ ∈ operators → ∀ x y z, g (f x y) z = f x (g y z)

namespace Term

variable {operators : List (Operator T)} (hassoc : Operator.MutuallyAssociative operators) (leaf : String → T)
include hassoc

/-- Nested to the left, operands are regrouped so that the first operator is applied last. -/
theorem value_nest_left_binary {b : BinaryUse T} (hb : b.IsOf operators) (x y : Term T)
    {tail : List (BinaryUse T × Term T)} (htail : ∀ p ∈ tail, p.1.IsOf operators) :
    (nest .left (binary b x y) tail).value leaf = b.apply (x.value leaf) ((nest .left y tail).value leaf) := by
  induction tail generalizing y with
  | nil => rfl
  | cons head tail ih =>
    obtain ⟨c, z⟩ := head
    obtain ⟨hc, htail⟩ := List.forall_mem_cons.mp htail
    have hregroup : (binary c (binary b x y) z).value leaf = (binary b x (binary c y z)).value leaf :=
      hassoc _ _ _ _ hb hc _ _ _
    have hself : TailsAgree leaf tail tail := List.forall₂_same.mpr fun _ _ => ⟨rfl, rfl⟩
    calc (nest .left (binary b x y) ((c, z) :: tail)).value leaf
      _ = (nest .left (binary c (binary b x y) z) tail).value leaf := rfl
      _ = (nest .left (binary b x (binary c y z)) tail).value leaf := value_nest_congr .left hregroup hself
      _ = b.apply (x.value leaf) ((nest .left (binary c y z) tail).value leaf) := ih _ htail

theorem value_nest_right {tail : List (BinaryUse T × Term T)} (htail : ∀ p ∈ tail, p.1.IsOf operators) (x : Term T) :
    (nest .right x tail).value leaf = (nest .left x tail).value leaf := by
  induction tail generalizing x with
  | nil => rfl
  | cons head tail ih =>
    obtain ⟨b, y⟩ := head
    obtain ⟨hb, htail⟩ := List.forall_mem_cons.mp htail
    rw [nest, nest, value, ih htail, value_nest_left_binary hassoc leaf hb x y htail]

theorem nestAlike (a a' : Associativity) : NestAlike operators leaf a a' := by
  intro x tail htail
  have hright := value_nest_right hassoc leaf htail x
  cases a with
  | right =>
    cases a' with
    | right => rfl
    | left => exact hright
  | left =>
    cases a' with
    | right => exact hright.symm
    | left => rfl

end Term

/-- What a text evaluates to it also evaluates to under another associativity, with mutually associative operators. -/
theorem Expression.evaluateWith_associating {e : Expression T} {leaf : String → T} {r : Resolved T}
    (hr : e.evaluateWith leaf = .ok r) (hassoc : Operator.MutuallyAssociative e.operators) {v : Vocabulary}
    (hv : v.operators = e.operators.map Operator.token) {text : List Char}
    (hscans : v.Scans none .run 0 text [] e.padding e.content) (a : Associativity) :
    ({ e with associativity := a } : Expression T).evaluateWith leaf = .ok r := by
  have hself := evaluateWith_of_nestAlike hr rfl rfl (.refl _ _ _) hscans hv
  rw [hr, Except.ok.injEq] at hself
  rw [hself]
  exact evaluateWith_of_nestAlike hr rfl rfl (Term.nestAlike hassoc leaf e.associativity a) hscans hv

namespace Parser

/-- If any two binary operators are associative with each other, it makes no difference whether operators associate
to the left or to the right. A text is refused by both parsers, or it is read by both and then fails to evaluate under
both associativities, or evaluates to the same value, which accounts for the same number of characters. -/
theorem evaluates_alike_of_mutuallyAssociative {p : Parser T} (hassoc : Operator.MutuallyAssociative p.operators)
    (source : String) :
    (∃ err, (p.associating .left).parse source = .error err ∧ (p.associating .right).parse source = .error err) ∨
    ∃ l r, (p.associating .left).parse source = .ok l ∧ (p.associating .right).parse source = .ok r ∧
      ∀ leaf, ((∃ err, l.evaluateWith leaf = .error err) ∧ ∃ err, r.evaluateWith leaf = .error err) ∨
        ∃ x, l.evaluateWith leaf = .ok x ∧ r.evaluateWith leaf = .ok x := by
  rw [parse_associating_eq_map, parse_associating_eq_map]
  cases hparse : p.parse source with
  | error err => exact Or.inl ⟨err, rfl, rfl⟩
  | ok e =>
    obtain ⟨_, hscans, _, hoperators, _⟩ := parse_spec hparse
    rw [← hoperators] at hassoc
    have hv : p.vocabulary.operators = e.operators.map Operator.token := by
      rw [hoperators]
      rfl
    refine Or.inr ⟨{ e with associativity := .left }, { e with associativity := .right }, rfl, rfl, ?_⟩
    intro leaf
    cases hleft : ({ e with associativity := .left } : Expression T).evaluateWith leaf with
    | ok x => exact Or.inr ⟨x, rfl, Expression.evaluateWith_associating hleft hassoc hv hscans .right⟩
    | error err =>
      refine Or.inl ⟨⟨err, rfl⟩, ?_⟩
      cases hright : ({ e with associativity := .right } : Expression T).evaluateWith leaf with
      | error err' => exact ⟨err', rfl⟩
      | ok x =>
        have hok := Expression.evaluateWith_associating hright hassoc hv hscans .left
        rw [hleft] at hok
        cases hok

/-- A parser with two operators that join texts, one of them with a bar in between. -/
def joining : Parser String :=
  (((new.unary "~" fun x => "~" ++ x).binary "+" fun x y => x ++ y).binary "|" fun x y => x ++ "|" ++ y).grouping
    "(" ")"

theorem mutuallyAssociative_joining : Operator.MutuallyAssociative joining.operators := by
  have hoperators : joining.operators = [⟨"~", .unary fun x => "~" ++ x⟩, ⟨"+", .binary fun x y => x ++ y⟩,
      ⟨"|", .binary fun x y => x ++ "|" ++ y⟩] := rfl
  intro s f t g hf hg x y z
  simp only [hoperators, List.mem_cons, Operator.mk.injEq, Combine.binary.injEq, reduceCtorEq, and_false, false_or,
    List.not_mem_nil, or_false] at hf hg
  obtain ⟨_, rfl⟩ | ⟨_, rfl⟩ := hf <;> obtain ⟨_, rfl⟩ | ⟨_, rfl⟩ := hg <;> simp only [String.append_assoc]

theorem evaluates_alike_joining :
    let source := "a + ~b | (c | d) + e"
    let content := Forest.value ⟨"a", 2, ⟨0, 1⟩⟩ <| .operator ⟨1, ⟨2, 3⟩⟩ <| .operator ⟨0, ⟨4, 5⟩⟩ <|
      .value ⟨"b", 2, ⟨5, 6⟩⟩ <| .operator ⟨2, ⟨7, 8⟩⟩ <|
      .group ⟨⟨"(", ")"⟩, ⟨9, 16⟩, 0⟩ (.value ⟨"c", 2, ⟨10, 11⟩⟩ <| .operator ⟨2, ⟨12, 13⟩⟩ <|
        .value ⟨"d", 2, ⟨14, 15⟩⟩ .nil) <|
      .operator ⟨1, ⟨17, 18⟩⟩ <| .value ⟨"e", 2, ⟨19, 20⟩⟩ .nil
    let l : Expression String := ⟨source, 3, content, joining.operators, id, .left⟩
    Operator.MutuallyAssociative joining.operators ∧ (joining.associating .left).parse source = .ok l ∧
      l.evaluateWith id = .ok ⟨"a~b|c|de", 20⟩ ∧
      ∃ r, (joining.associating .right).parse source = .ok r ∧ r.evaluateWith id = .ok ⟨"a~b|c|de", 20⟩ := by
  intro source content l
  have hparse : (joining.associating .left).parse source = .ok l := by
    simp only [source]
    with_unfolding_all rfl
  have hleft : l.evaluateWith id = .ok ⟨"a~b|c|de", 20⟩ := by with_unfolding_all rfl
  refine ⟨mutuallyAssociative_joining, hparse, hleft, ?_⟩
  obtain ⟨err, herr, _⟩ | ⟨l', r, hl, hr, halike⟩ :=
    evaluates_alike_of_mutuallyAssociative mutuallyAssociative_joining source
  · rw [hparse] at herr
    cases herr
  · rw [hparse] at hl
    cases hl
    obtain ⟨⟨err, herr⟩, _⟩ | ⟨x, hx, hright⟩ := halike id
    · rw [hleft] at herr
      cases herr
    · rw [hleft] at hx
      cases hx
      exact ⟨r, hr, hright⟩

end Parser

end Bracketed
