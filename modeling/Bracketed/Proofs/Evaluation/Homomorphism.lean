import Bracketed.Proofs.Evaluation.Agreement
import Bracketed.Proofs.Scan.Parse

namespace Bracketed

variable {T U : Type}

@[simp] theorem EvalError.shift_zero (e : EvalError) : e.shift 0 = e := by
  rcases e with ⟨_ | _⟩ | ⟨_, _ | _⟩ <;> simp [shift]

@[simp] theorem Forest.shift_zero (f : Forest) : f.shift 0 = f := by
  induction f <;> simp_all [shift, Span.shift]

namespace Run.Alike

variable {r : Run T (Resolved T)} {s : Run U (Resolved U)}

theorem map_consumed_eq {R : T → U → Prop} (h : Alike R 0 r s) :
    s.result.map Resolved.consumed = r.result.map Resolved.consumed := by
  cases h with
  | ok hr hs _ hconsumed =>
    rw [hr, hs]
    exact congrArg Except.ok hconsumed.symm
  | error hr hs =>
    rw [hr, hs, EvalError.shift_zero]
    rfl

theorem result_eq_map {h : T → U} (halike : Alike (fun a b => h a = b) 0 r s) :
    s.result = r.result.map fun x => ⟨h x.value, x.consumed⟩ := by
  cases halike with
  | @ok x y hr hs hvalue hconsumed =>
    rw [hr, hs]
    change Except.ok y = .ok ⟨h x.value, x.consumed⟩
    rw [hvalue, hconsumed]
  | error hr hs =>
    rw [hr, hs, EvalError.shift_zero]
    rfl

end Run.Alike

namespace Parser

/-- The same parser but for the functions that give values and operators their meaning. -/
structure SameSyntax (p : Parser T) (q : Parser U) : Prop where
  tokens : p.operators.map Operator.token = q.operators.map Operator.token
  kinds : p.operators.map Operator.kind = q.operators.map Operator.kind
  groupings : p.groupings = q.groupings
  associativity : p.associativity = q.associativity

/-- What the operators of `p` make of values, those of `q` in the same places make of what `h` makes of these
values. -/
structure CarriesOver (h : T → U) (p : Parser T) (q : Parser U) : Prop where
  unary : ∀ (index : Nat) (token token' : String) (f : T → T) (f' : U → U),
    p.operators[index]? = some ⟨token, .unary f⟩ → q.operators[index]? = some ⟨token', .unary f'⟩ →
      ∀ x, h (f x) = f' (h x)
  binary : ∀ (index : Nat) (token token' : String) (f : T → T → T) (f' : U → U → U),
    p.operators[index]? = some ⟨token, .binary f⟩ → q.operators[index]? = some ⟨token', .binary f'⟩ →
      ∀ x y, h (f x y) = f' (h x) (h y)

namespace SameSyntax

variable {p : Parser T} {q : Parser U}

theorem vocabulary_eq (h : p.SameSyntax q) : q.vocabulary = p.vocabulary := by
  rw [vocabulary, vocabulary, h.tokens, h.groupings]

/-- Operators in the same places are alike if their functions keep `R`. -/
theorem rel_operator (h : p.SameSyntax q) {R : T → U → Prop} {index : Nat}
    (hunary : ∀ token token' f f', p.operators[index]? = some ⟨token, .unary f⟩ →
      q.operators[index]? = some ⟨token', .unary f'⟩ → ∀ a b, R a b → R (f a) (f' b))
    (hbinary : ∀ token token' f f', p.operators[index]? = some ⟨token, .binary f⟩ →
      q.operators[index]? = some ⟨token', .binary f'⟩ → ∀ a b c d, R a b → R c d → R (f a c) (f' b d)) :
    Option.Rel (Operator.Alike R) p.operators[index]? q.operators[index]? := by
  have htoken := congrArg (·[index]?) h.tokens
  have hkind := congrArg (·[index]?) h.kinds
  simp only [List.getElem?_map] at htoken hkind
  rcases hp : p.operators[index]? with _ | ⟨token, f | f⟩ <;>
    rcases hq : q.operators[index]? with _ | ⟨token', f' | f'⟩ <;>
    rw [hp, hq] at htoken hkind <;> cases htoken <;> cases hkind
  · exact .none
  · exact .some (.unary (hunary token token f f' hp hq))
  · exact .some (.binary (hbinary token token f f' hp hq))

/-- Reading knows nothing of the functions. -/
theorem parse_cases (h : p.SameSyntax q) (source : String) :
    (∃ err, p.parse source = .error err ∧ q.parse source = .error err) ∨
    ∃ padding content,
      p.parse source = .ok ⟨source, padding, content, p.operators, p.leaf, p.associativity⟩ ∧
      q.parse source = .ok ⟨source, padding, content, q.operators, q.leaf, q.associativity⟩ := by
  rw [parse, parse, parseWith, parseWith, h.vocabulary_eq]
  cases p.vocabulary.check with
  | error err => exact Or.inl ⟨err, rfl, rfl⟩
  | ok _ =>
    cases p.vocabulary.tokens source.toList with
    | error err => exact Or.inl ⟨err, rfl, rfl⟩
    | ok tokens => exact Or.inr ⟨_, _, rfl, rfl⟩

/-- What is read with the same syntax is evaluated alike if all functions keep `R`. -/
theorem alike_run (h : p.SameSyntax q) {source : String} {e : Expression T} {e' : Expression U}
    (hp : p.parse source = .ok e) (hq : q.parse source = .ok e') {R : T → U → Prop} {leaf : String → T}
    {leaf' : String → U} (hleaf : ∀ text, R (leaf text) (leaf' text))
    (hoperators : ∀ index : Nat, Option.Rel (Operator.Alike R) p.operators[index]? q.operators[index]?) :
    Run.Alike R 0 (e.run leaf) (e'.run leaf') := by
  rcases h.parse_cases source with ⟨err, herr, _⟩ | ⟨padding, content, hok, hok'⟩
  · rw [herr] at hp
    cases hp
  · rw [hok] at hp
    rw [hok'] at hq
    cases hp
    cases hq
    have hm : Meaning.Alike R ⟨p.operators, leaf, p.associativity⟩ ⟨q.operators, leaf', q.associativity⟩ :=
      ⟨hoperators, hleaf, h.associativity.symm⟩
    have hitems := content.alike_items hm 0 (Expression.rootId + 1) (Expression.rootId + 1)
    rw [Forest.shift_zero] at hitems
    rw [Expression.run, Expression.run, ← h.associativity]
    rw [← h.associativity] at hitems
    refine ((Item.alike_foldFrom_and_fold p.associativity hitems).2.orAt 0).bind ?_
    intro x y hvalue hconsumed
    exact .ok rfl rfl hvalue (congrArg (· + padding) hconsumed)

end SameSyntax

/-- Parsers that differ in nothing but their functions read a text as the same nodes or refuse it with the same
error. Whether and how its evaluation fails and how many characters it accounts for is the same too, and its
value is carried over by every `f` that carries over what the functions give. -/
theorem evaluateWith_eq_map {p : Parser T} {q : Parser U} (h : p.SameSyntax q) (source : String) :
    (q.parse source).map Expression.nodes = (p.parse source).map Expression.nodes ∧
    ∀ e e', p.parse source = .ok e → q.parse source = .ok e' →
      (∀ leaf leaf', (e'.evaluateWith leaf').map Resolved.consumed =
        (e.evaluateWith leaf).map Resolved.consumed) ∧
      ∀ f : T → U, CarriesOver f p q →
        (∀ leaf leaf', (∀ text, f (leaf text) = leaf' text) →
          e'.evaluateWith leaf' = (e.evaluateWith leaf).map fun r => ⟨f r.value, r.consumed⟩) ∧
        ((∀ text, f (p.leaf text) = q.leaf text) →
          e'.evaluate = e.evaluate.map fun r => ⟨f r.value, r.consumed⟩) := by
  refine ⟨?_, ?_⟩
  · rcases h.parse_cases source with ⟨err, hp, hq⟩ | ⟨padding, content, hp, hq⟩ <;> rw [hp, hq] <;> rfl
  intro e e' hp hq
  refine ⟨?_, ?_⟩
  · intro leaf leaf'
    have halike : Run.Alike (fun _ _ => True) 0 (e.run leaf) (e'.run leaf') :=
      h.alike_run hp hq (fun _ => trivial) fun index => h.rel_operator (by intros; trivial) (by intros; trivial)
    exact halike.map_consumed_eq
  · intro f hf
    have hmap leaf leaf' (hleaf : ∀ text, f (leaf text) = leaf' text) :
        e'.evaluateWith leaf' = (e.evaluateWith leaf).map fun r => ⟨f r.value, r.consumed⟩ := by
      refine (h.alike_run hp hq hleaf fun index => h.rel_operator ?_ ?_).result_eq_map
      · rintro token token' g g' hg hg' a _ rfl
        exact hf.unary index token token' g g' hg hg' a
      · rintro token token' g g' hg hg' a _ c _ rfl rfl
        exact hf.binary index token token' g g' hg hg' a c
    refine ⟨hmap, ?_⟩
    intro hleaf
    rw [Expression.evaluate, Expression.evaluate, leaf_of_parse hp, leaf_of_parse hq]
    exact hmap p.leaf q.leaf hleaf

/-- The parser whose values are the lengths of those of `bracketing`. -/
def measuring : Parser Nat :=
  (((withLeaf String.length).unary "~" fun x => 1 + x).binary "-" fun x y => 3 + x + y).grouping "(" ")"
    |>.associating .left

theorem evaluateWith_eq_map_measuring :
    let measured : Expression Nat :=
      ⟨"a - b - (~c)", 1, bracketed.content, measuring.operators, String.length, .left⟩
    bracketing.SameSyntax measuring ∧ CarriesOver String.length bracketing measuring ∧
      bracketing.parse "a - b - (~c)" = .ok bracketed ∧ measuring.parse "a - b - (~c)" = .ok measured ∧
      bracketed.evaluate = .ok ⟨"[[a-b]-~c]", 12⟩ ∧ measured.evaluate = .ok ⟨10, 12⟩ := by
  intro measured
  have hsame : bracketing.SameSyntax measuring := ⟨rfl, rfl, rfl, rfl⟩
  have hcarries : CarriesOver String.length bracketing measuring := by
    refine ⟨?_, ?_⟩
    · rintro (_ | _ | index) token token' f f' hf hf' x <;> cases hf
      cases hf'
      exact String.length_append "~" x
    · rintro (_ | _ | index) token token' f f' hf hf' x y <;> cases hf
      cases hf'
      simp only [String.length_append]
      change 1 + x.length + 1 + y.length + 1 = 3 + x.length + y.length
      omega
  have hmeasured : measuring.parse "a - b - (~c)" = .ok measured := by with_unfolding_all rfl
  have hvalue : bracketed.evaluate = .ok ⟨"[[a-b]-~c]", 12⟩ := by with_unfolding_all rfl
  refine ⟨hsame, hcarries, parse_bracketing, hmeasured, hvalue, ?_⟩
  have hmap := (evaluateWith_eq_map hsame _).2 bracketed measured parse_bracketing hmeasured
  rw [(hmap.2 String.length hcarries).2 fun _ => rfl, hvalue]
  rfl

end Parser

end Bracketed
