import Bracketed.Proofs.Evaluation.Outline
import Bracketed.Proofs.Grammar
import Bracketed.Proofs.Scan.Joining

namespace Bracketed

variable {T : Type}

/-- A binary operator is among the children that the group lists in `all`. -/
def GroupNode.HasBinary (g : GroupNode) (operators : List (Operator T)) (all : List Node) : Prop :=
  ∃ id ∈ g.children, ∃ o, all[id]? = some (.operator o) ∧ o.IsOfKind operators .binary

namespace Term

/-- To the left, all that stands before the last operator is its left operand. -/
theorem nest_left_append (x : Term T) (tail : List (BinaryUse T × Term T)) (b : BinaryUse T) (y : Term T) :
    nest .left x (tail ++ [(b, y)]) = binary b (nest .left x tail) y := by
  induction tail generalizing x with
  | nil => rfl
  | cons head tail ih => exact ih (binary head.1 x head.2)

end Term

namespace Forest

variable {operators : List (Operator T)} {a : Associativity} {first : Nat}

/-- Siblings that may stand behind an operand are read on behind other siblings. -/
theorem reads_append (f : Forest) {f' : Forest} {tail' : List (BinaryUse T × Term T)} :
    (∀ first x tail, f.Reads operators a first x tail → f'.Continues operators a (first + f.size) tail' →
      (f.append f').Reads operators a first x (tail ++ tail')) ∧
    (∀ first tail, f.Continues operators a first tail → f'.Continues operators a (first + f.size) tail' →
      (f.append f').Continues operators a first (tail ++ tail')) := by
  induction f with
  | nil =>
    refine ⟨?_, ?_⟩
    · intro first x tail h
      cases h
    · intro first tail h hbehind
      cases h
      exact hbehind
  | value v rest ih =>
    refine ⟨?_, ?_⟩
    · intro first x tail h hbehind
      rw [size, ← Nat.add_assoc] at hbehind
      cases h with
      | value htail => exact .value (ih.2 _ _ htail hbehind)
    · intro first tail h
      cases h
  | operator o rest ih =>
    refine ⟨?_, ?_⟩
    · intro first x tail h hbehind
      rw [size, ← Nat.add_assoc] at hbehind
      cases h with
      | unary hop hrest => exact .unary hop (ih.1 _ _ _ hrest hbehind)
    · intro first tail h hbehind
      rw [size, ← Nat.add_assoc] at hbehind
      cases h with
      | binary hop hrest => exact .binary hop (ih.1 _ _ _ hrest hbehind)
  | group e content rest ihc ihr =>
    refine ⟨?_, ?_⟩
    · intro first x tail h hbehind
      rw [size, ← Nat.add_assoc, ← Nat.add_assoc] at hbehind
      cases h with
      | group hcontent htail => exact .group hcontent (ihr.2 _ _ htail hbehind)
    · intro first tail h
      cases h

theorem Continues.exists_binary {f : Forest} {p : BinaryUse T × Term T} {tail : List (BinaryUse T × Term T)}
    (h : f.Continues operators a first (p :: tail)) (parent : Nat) :
    ∃ o, .operator o ∈ f.tops parent first ∧ o.IsOfKind operators .binary := by
  cases h with
  | binary hop hrest => exact ⟨_, List.mem_cons_self, by rw [OperatorUse.IsOfKind, hop]; rfl⟩

/-- Only where a binary operator stands is there more than one operand. -/
theorem Reads.exists_binary {f : Forest} {x : Term T} {p : BinaryUse T × Term T} {tail : List (BinaryUse T × Term T)}
    (h : f.Reads operators a first x (p :: tail)) (parent : Nat) :
    ∃ o, .operator o ∈ f.tops parent first ∧ o.IsOfKind operators .binary := by
  induction f generalizing first x with
  | nil => cases h
  | value v rest ih =>
    cases h with
    | value htail =>
      obtain ⟨o, ho, hkind⟩ := htail.exists_binary parent
      exact ⟨o, List.mem_cons_of_mem _ ho, hkind⟩
  | operator o rest ih =>
    cases h with
    | unary hop hrest =>
      obtain ⟨o, ho, hkind⟩ := ih hrest
      exact ⟨o, List.mem_cons_of_mem _ ho, hkind⟩
  | group e content rest ihc ihr =>
    cases h with
    | group hcontent htail =>
      obtain ⟨o, ho, hkind⟩ := htail.exists_binary parent
      exact ⟨o, List.mem_cons_of_mem _ ho, hkind⟩

end Forest

namespace Expression

variable {e : Expression T}

theorem hasBinary_of_reads {x : Term T} {p : BinaryUse T × Term T} {tail : List (BinaryUse T × Term T)}
    (h : e.content.Reads e.operators e.associativity 1 x (p :: tail)) : e.root.HasBinary e.operators e.nodes := by
  obtain ⟨o, ho, hkind⟩ := h.exists_binary rootId
  have hnode : some (.operator o) ∈ (e.content.ids 1).map (e.nodes[·]?) := by
    rw [e.content_standsIn.map_ids]
    exact List.mem_map_of_mem ho
  obtain ⟨id, hid, heq⟩ := List.mem_map.mp hnode
  exact ⟨id, hid, o, heq, hkind⟩

end Expression

namespace Parser

variable {p : Parser T}

/-- What evaluates is read as operands of the same value wherever it stands, and as one operand if there is no binary
operator between its operands. -/
theorem exists_reads_of_outline_eq {source : String} {e : Expression T} (h : p.parse source = .ok e)
    {leaf : String → T} {r : Resolved T} (hr : e.evaluateWith leaf = .ok r) {f : Forest}
    (houtline : f.outline = e.content.outline) (first : Nat) :
    ∃ x tail, f.Reads p.operators p.associativity first x tail ∧
      (Term.nest p.associativity x tail).value leaf = r.value ∧
      (¬ e.root.HasBinary p.operators e.nodes → tail = []) := by
  obtain ⟨_, _, _, hoperators, hassociativity⟩ := parse_spec h
  rw [← hoperators, ← hassociativity]
  obtain ⟨x, tail, x', tail', hreads, hreads', hvalue, hagree⟩ :=
    Expression.exists_reads_of_outline_eq hr (.refl _ _ _) houtline first
  refine ⟨x', tail', hreads', hvalue, ?_⟩
  intro hnone
  cases hagree with
  | nil => rfl
  | cons => exact absurd (Expression.hasBinary_of_reads hreads) hnone

section

variable (hfree : p.vocabulary.IsBlankFree) {index : Nat} {t : String} {f : T → T → T}
  (hoperator : p.operators[index]? = some ⟨t, .binary f⟩) (hshadows : ¬ (p.vocabulary.takeOperators index).Shadows t)
  {left right : String} {l r : Expression T} (hl : p.parse left = .ok l) (hr : p.parse right = .ok r)
include hfree hoperator hshadows hl hr

/-- Two texts with an operator and spaces between them are read as what stands on either side of the operator. -/
theorem exists_parse_joined :
    ∃ (e : Expression T) (content content' : Forest) (span : Span),
      p.parse (left ++ " " ++ t ++ " " ++ right) = .ok e ∧
      e.content = content.append (.operator ⟨index, span⟩ content') ∧ content.outline = l.content.outline ∧
      content'.outline = r.content.outline := by
  obtain ⟨hvalid, hleft, _⟩ := parse_spec hl
  obtain ⟨_, hright, _⟩ := parse_spec hr
  have hbehind : r.content.outline.ScansAs p.vocabulary none .run (left.toList.length + 1 + t.length)
      (' ' :: right.toList) [] :=
    Vocabulary.scansAs_space_append hvalid hfree (Outline.ScansAs.shift ⟨_, _, hright, rfl⟩ _)
  obtain ⟨padding', content', hbehind, houtline'⟩ := hbehind
  have hsep := hfree.separates (List.cons_ne_nil ' ' []) Outline.isBlank_of_mem_space t.toList right.toList
  obtain ⟨padding, content, houtline, hscans⟩ :=
    Vocabulary.exists_scans_operator hvalid hfree (operators_vocabulary hoperator) hshadows ⟨_, _, hleft, rfl⟩ hbehind
      hsep
  have htext : left.toList ++ [' '] ++ (t.toList ++ ' ' :: right.toList) =
      (left ++ " " ++ t ++ " " ++ right).toList := by
    simp [String.toList_append]
  rw [htext] at hscans
  exact ⟨_, content, content', _, parse_of_scans hvalid hscans, rfl, houtline, houtline'⟩

/-- Two texts that evaluate, with a binary operator and spaces between them, evaluate too, and all of the text is
accounted for. If no other binary operator stands before this one outside all groups, it is the one that is applied last
to the right, and its operands are the values of the two texts. The same holds to the left if none stands behind it. No
token may have blanks in it, and none that is tried before the operator may shadow it. -/
theorem parse_joined {leaf : String → T} {x y : Resolved T} (hx : l.evaluateWith leaf = .ok x)
    (hy : r.evaluateWith leaf = .ok y) :
    ∃ e z, p.parse (left ++ " " ++ t ++ " " ++ right) = .ok e ∧
      e.evaluateWith leaf = .ok ⟨z, left.length + right.length + t.length + 2⟩ ∧
      (p.associativity = .right → ¬ l.root.HasBinary p.operators l.nodes → z = f x.value y.value) ∧
      (p.associativity = .left → ¬ r.root.HasBinary p.operators r.nodes → z = f x.value y.value) := by
  obtain ⟨e, content, content', span, hparse, hcontent, houtline, houtline'⟩ :=
    exists_parse_joined hfree hoperator hshadows hl hr
  obtain ⟨_, hscans, _, hoperators, hassociativity⟩ := parse_spec hparse
  -- The operands are those of the one text, and then those of the other behind the operator.
  obtain ⟨x₀, tail, hreads, hvalue, hsingle⟩ := exists_reads_of_outline_eq hl hx houtline 1
  obtain ⟨y₀, tail', hreads', hvalue', hsingle'⟩ := exists_reads_of_outline_eq hr hy houtline' (1 + content.size + 1)
  have hjoined := (Forest.reads_append content).1 1 x₀ tail hreads (.binary (o := ⟨index, span⟩) hoperator hreads')
  rw [← hcontent] at hjoined
  have hlength : (Term.nest p.associativity x₀ (tail ++ (⟨1 + content.size, span.start, t, f⟩, y₀) :: tail')).extent +
      e.padding = left.length + right.length + t.length + 2 := by
    rw [(hscans.extent_of_reads rfl).1 1 _ _ hjoined]
    have hspace : " ".length = 1 := rfl
    simp only [String.length_toList, String.length_append, hspace]
    omega
  rw [← hoperators, ← hassociativity] at hjoined
  have heval := Expression.evaluateWith_of_reads hjoined leaf
  rw [hassociativity, hlength] at heval
  refine ⟨e, _, hparse, heval, ?_, ?_⟩
  · intro hright hnone
    rw [hright] at hvalue hvalue' ⊢
    rw [hsingle hnone] at hvalue ⊢
    rw [List.nil_append, Term.nest, Term.value, hvalue', ← hvalue, Term.nest_nil]
  · intro hleft hnone
    rw [hleft] at hvalue hvalue' ⊢
    rw [hsingle' hnone] at hvalue' ⊢
    rw [Term.nest_left_append, Term.value, hvalue, ← hvalue', Term.nest_nil]

end

theorem parse_joined_bracketing :
    let left : Expression String := ⟨"a - b", 0, .value ⟨"a", 2, ⟨0, 1⟩⟩ <| .operator ⟨1, ⟨2, 3⟩⟩ <|
      .value ⟨"b", 2, ⟨4, 5⟩⟩ .nil, bracketing.operators, id, .left⟩
    let right : Expression String := ⟨"(~c)", 0, .group ⟨⟨"(", ")"⟩, ⟨0, 4⟩, 0⟩ (.operator ⟨0, ⟨1, 2⟩⟩ <|
      .value ⟨"c", 1, ⟨2, 3⟩⟩ .nil) .nil, bracketing.operators, id, .left⟩
    bracketing.vocabulary.IsBlankFree ∧
      bracketing.operators[1]? = some ⟨"-", .binary fun x y => "[" ++ x ++ "-" ++ y ++ "]"⟩ ∧
      ¬ (bracketing.vocabulary.takeOperators 1).Shadows "-" ∧
      bracketing.parse "a - b" = .ok left ∧ bracketing.parse "(~c)" = .ok right ∧
      left.evaluateWith id = .ok ⟨"[a-b]", 5⟩ ∧ right.evaluateWith id = .ok ⟨"~c", 4⟩ ∧
      ¬ right.root.HasBinary bracketing.operators right.nodes ∧
      ∃ e, bracketing.parse ("a - b" ++ " " ++ "-" ++ " " ++ "(~c)") = .ok e ∧
        e.evaluateWith id = .ok ⟨"[[a-b]-~c]", 12⟩ := by
  intro left right
  have hfree : bracketing.vocabulary.IsBlankFree := prefixFree_bracketing.isBlankFree
  have hoperator : bracketing.operators[1]? = some ⟨"-", .binary fun x y => "[" ++ x ++ "-" ++ y ++ "]"⟩ := rfl
  have hshadows : ¬ (bracketing.vocabulary.takeOperators 1).Shadows "-" := by decide
  have hleft : bracketing.parse "a - b" = .ok left := by with_unfolding_all rfl
  have hright : bracketing.parse "(~c)" = .ok right := by with_unfolding_all rfl
  have hx : left.evaluateWith id = .ok ⟨"[a-b]", 5⟩ := by with_unfolding_all rfl
  have hy : right.evaluateWith id = .ok ⟨"~c", 4⟩ := by with_unfolding_all rfl
  have hnone : ¬ right.root.HasBinary bracketing.operators right.nodes := by
    rintro ⟨id, hid, o, ho, _⟩
    rw [List.mem_singleton.mp hid] at ho
    cases ho
  refine ⟨hfree, hoperator, hshadows, hleft, hright, hx, hy, hnone, ?_⟩
  obtain ⟨e, z, hparse, heval, _, hz⟩ := parse_joined hfree hoperator hshadows hleft hright hx hy
  rw [hz rfl hnone] at heval
  exact ⟨e, hparse, heval⟩

end Parser

end Bracketed
