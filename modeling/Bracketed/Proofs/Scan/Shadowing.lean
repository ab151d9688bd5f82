import Bracketed.Proofs.Scan.Spacing
import Mathlib.Data.List.TakeWhile

namespace Bracketed

namespace Vocabulary

/-- Wherever the text stands, a registered token stands too. -/
def Shadows (v : Vocabulary) (t : String) : Prop :=
  ∃ s ∈ v.texts, s.toList <+: t.toList

instance (v : Vocabulary) (t : String) : Decidable (v.Shadows t) :=
  inferInstanceAs (Decidable (∃ s ∈ v.texts, s.toList <+: t.toList))

/-- The vocabulary before the operator with the place `index` was registered. -/
def takeOperators (v : Vocabulary) (index : Nat) : Vocabulary :=
  { v with operators := v.operators.take index }

/-- The vocabulary with one more operator, to be tried after the others. -/
def pushOperator (v : Vocabulary) (t : String) : Vocabulary :=
  { v with operators := v.operators ++ [t] }

variable {v : Vocabulary} {enclosing : Option Grouping} {rest cs : List Char}

/-- An operator is found only where none of those stands that were registered before it. -/
theorem not_isPrefix_of_operator? {t s : String} {index : Nat} (h : v.operator? cs = some (t, index))
    (hs : s ∈ v.operators.take index) : ¬ s.toList <+: cs := by
  rw [operator?, List.find?_eq_some_iff_getElem] at h
  obtain ⟨-, i, hi, hentry, hbefore⟩ := h
  rw [List.getElem_zipIdx, Nat.zero_add, Prod.mk.injEq] at hentry
  obtain ⟨-, rfl⟩ := hentry
  obtain ⟨j, hj, rfl⟩ := List.mem_take_iff_getElem.mp hs
  have hnot := hbefore j (by omega)
  rw [List.getElem_zipIdx, Bool.not_eq_true'] at hnot
  rw [← List.isPrefixOf_iff_prefix]
  exact Bool.eq_false_iff.mp hnot

theorem Finds.not_shadows {index : Nat} {token : String}
    (h : v.Finds enclosing (token.toList ++ rest) (.operator index token)) :
    ¬ (v.takeOperators index).Shadows token := by
  rw [finds_iff_prevails] at h
  obtain ⟨-, hopening, -, hclosing, hoperator⟩ := h
  rintro ⟨s, hs, hbegins⟩
  have hnone := not_isPrefix_of_eq_none (v := v.takeOperators index) hopening hclosing fun _ =>
    not_isPrefix_of_operator? hoperator
  exact hnone s hs (hbegins.trans (List.prefix_append _ _))

/-- A group is opened by a grouping only if those registered before it have other start delimiters there. -/
theorem Finds.not_isPrefix_opening {g d : Grouping} (h : v.Finds enclosing (g.opening.toList ++ rest) (.opening g))
    (hd : d ∈ v.groupings.takeWhile (· ≠ g)) : ¬ d.opening.toList <+: g.opening.toList := by
  rw [finds_iff_prevails] at h
  obtain ⟨-, hopening⟩ := h
  obtain ⟨hbegins, before, after, hsplit, hbefore⟩ := List.find?_eq_some_iff_append.mp hopening
  have hmem : d ∈ before := by
    have hne : ∀ x ∈ before, decide (x ≠ g) = true := by
      intro x hx
      rw [decide_eq_true_eq]
      rintro rfl
      have hnot := hbefore x hx
      rw [hbegins] at hnot
      cases hnot
    rw [hsplit, List.takeWhile_append_of_pos hne, List.takeWhile_cons_of_neg (by simp), List.append_nil] at hd
    exact hd
  intro hstarts
  have hnot := hbefore d hmem
  rw [List.isPrefixOf_iff_prefix.mpr (hstarts.trans (List.prefix_append _ _))] at hnot
  cases hnot

/-- A group is closed only if no start delimiter stands where its end delimiter stands. -/
theorem Finds.not_isPrefix_closing {g d : Grouping}
    (h : v.Finds enclosing (g.closing.toList ++ rest) (.closing g)) (hd : d ∈ v.groupings) :
    ¬ d.opening.toList <+: g.closing.toList := by
  rw [finds_iff_prevails] at h
  obtain ⟨-, hopening, -⟩ := h
  intro hstarts
  exact List.find?_eq_none.mp hopening d hd
    (List.isPrefixOf_iff_prefix.mpr (hstarts.trans (List.prefix_append _ _)))

end Vocabulary

/-- No token that is tried before the node's own stands wherever that one stands. For a group this is said of its
start delimiter, and of start delimiters in place of its end delimiter. -/
def Node.IsUnshadowed (v : Vocabulary) : Node → Prop
  | .value _ => True
  | .operator o => ∃ token, v.operators[o.operator]? = some token ∧ ¬ (v.takeOperators o.operator).Shadows token
  | .group g => ∀ d, g.grouping = some d →
      (∀ earlier ∈ v.groupings.takeWhile (· ≠ d), ¬ earlier.opening.toList <+: d.opening.toList) ∧
        ∀ other ∈ v.groupings, ¬ other.opening.toList <+: d.closing.toList

theorem Vocabulary.Scans.isUnshadowed {v : Vocabulary} {enclosing : Option Grouping} {b : Boundary}
    {position padding : Nat} {text rest : List Char} {f : Forest}
    (h : v.Scans enclosing b position text rest padding f) (parent first : Nat) :
    ∀ n ∈ f.nodes parent first, n.IsUnshadowed v := by
  induction h generalizing parent first with
  | stop enclosing position rest => exact List.forall_mem_nil _
  | blanks hpasses hblank htoken ih => exact ih parent first
  | value hpasses hlead hword htrail htoken ih => exact List.forall_mem_cons.mpr ⟨trivial, ih parent (first + 1)⟩
  | operator hfinds hrun ih =>
    exact List.forall_mem_cons.mpr ⟨⟨_, hfinds.spec.1, hfinds.not_shadows⟩, ih parent (first + 1)⟩
  | group hopening hcontent hclosing hstop hrun ihc ihr =>
    rw [Forest.nodes_group, List.forall_mem_cons, List.forall_mem_append]
    refine ⟨?_, ihc _ _, ihr _ _⟩
    rintro d ⟨⟩
    exact ⟨fun _ => hopening.not_isPrefix_opening, fun _ => hclosing.not_isPrefix_closing⟩

namespace Vocabulary

variable {v : Vocabulary} {t : String}

theorem operator?_pushOperator (cs : List Char) :
    (v.pushOperator t).operator? cs =
      (v.operator? cs).or (if t.toList.isPrefixOf cs then some (t, v.operators.length) else none) := by
  rw [operator?, operator?, pushOperator, List.zipIdx_append, List.find?_append]
  simp [List.zipIdx_cons]

/-- Where an operator stands that is shadowed, another token is found. -/
theorem tokenAt_pushOperator (h : v.Shadows t) (enclosing : Option Grouping) (c : Char) (cs : List Char) :
    (v.pushOperator t).tokenAt enclosing c cs = v.tokenAt enclosing c cs := by
  have hopening : (v.pushOperator t).opening? (c :: cs) = v.opening? (c :: cs) := rfl
  have hclosing : (v.pushOperator t).closing? (c :: cs) = v.closing? (c :: cs) := rfl
  rw [tokenAt, tokenAt, hopening, hclosing, operator?_pushOperator]
  cases hopens : v.opening? (c :: cs) with
  | some g => rfl
  | none =>
    cases enclosing.filter fun g => g.closing.toList.isPrefixOf (c :: cs) with
    | some g => rfl
    | none =>
      cases hcloses : v.closing? (c :: cs) with
      | some g => rfl
      | none =>
        cases hoperator : v.operator? (c :: cs) with
        | some found => rfl
        | none =>
          obtain ⟨s, hs, hstarts⟩ := h
          have hnone := not_isPrefix_of_eq_none hopens hcloses fun t ht => by
            rw [← List.isPrefixOf_iff_prefix]
            exact operator?_eq_none_iff.mp hoperator t ht
          have hnot : ¬ t.toList.isPrefixOf (c :: cs) = true := by
            rw [List.isPrefixOf_iff_prefix]
            exact fun hbegins => hnone s hs (hstarts.trans hbegins)
          rw [if_neg hnot]
          rfl

theorem tokensFrom_pushOperator (h : v.Shadows t) (groups : List (Nat × Grouping)) (position : Nat)
    (cs : List Char) : (v.pushOperator t).tokensFrom groups position cs = v.tokensFrom groups position cs := by
  fun_induction v.tokensFrom groups position cs with
  | case1 | case2 => rw [tokensFrom]
  | case3 groups position c cs g htoken => rw [tokensFrom, tokenAt_pushOperator h, htoken]
  | case4 groups position c cs token htoken ih =>
    rw [tokensFrom, tokenAt_pushOperator h, htoken]
    dsimp only
    rw [ih]

theorem Valid.pushOperator (hv : v.Valid) (h : v.Shadows t) : (v.pushOperator t).Valid where
  operator := by
    refine List.forall_mem_append.mpr ⟨hv.operator, List.forall_mem_singleton.mpr ?_⟩
    rintro rfl
    obtain ⟨s, hs, hstarts⟩ := h
    exact hv.ne_empty s hs (String.toList_eq_nil_iff.mp (List.prefix_nil.mp hstarts))
  opening := hv.opening
  closing := hv.closing

end Vocabulary

namespace Parser

variable {T : Type} {p : Parser T}

theorem parse_operator_of_shadows (hcheck : p.vocabulary.check = .ok ()) {op : Operator T}
    (h : p.vocabulary.Shadows op.token) (source : String) :
    (p.operator op).parse source = (p.parse source).map fun e => { e with operators := e.operators ++ [op] } := by
  have hvocabulary : (p.operator op).vocabulary = p.vocabulary.pushOperator op.token := by
    rw [vocabulary, operator, List.map_append]
    rfl
  have hvalid := (Vocabulary.valid_of_check hcheck).pushOperator h
  rw [parse, parse, parseWith, parseWith, hvocabulary, hcheck, Vocabulary.check_of_valid hvalid, Vocabulary.tokens,
    Vocabulary.tokensFrom_pushOperator h, Vocabulary.tokens]
  cases p.vocabulary.tokensFrom [] 0 source.toList <;> rfl

/-- A token is not found if another one that is tried before it stands wherever it stands. Of such operators and
groupings there are no nodes, and none can be closed whose end delimiter is taken for a start delimiter. To register
such an operator changes neither the tree nor the error of any text. -/
theorem parse_isUnshadowed (hcheck : p.vocabulary.check = .ok ()) :
    (∀ source e, p.parse source = .ok e → ∀ n ∈ e.nodes, n.IsUnshadowed p.vocabulary) ∧
      ∀ op source, p.vocabulary.Shadows op.token →
        (p.operator op).parse source = (p.parse source).map fun e => { e with operators := e.operators ++ [op] } := by
  refine ⟨?_, fun op source h => parse_operator_of_shadows hcheck h source⟩
  intro source e h
  obtain ⟨-, hscans, -, -, -⟩ := parse_spec h
  refine List.forall_mem_cons.mpr ⟨?_, hscans.isUnshadowed Expression.rootId 1⟩
  rintro d ⟨⟩

/-- The operator `->` and the grouping of two brackets are never found, and `(-` would not be either. -/
theorem parse_isUnshadowed_bracketing :
    let p := (bracketing.binary "->" fun x y => x ++ "->" ++ y).grouping "((" "))"
    let inner := Forest.operator ⟨1, ⟨5, 6⟩⟩ <| .value ⟨"b", 1, ⟨6, 7⟩⟩ .nil
    let content := Forest.value ⟨"a", 1, ⟨0, 1⟩⟩ <| .operator ⟨1, ⟨1, 2⟩⟩ <| .value ⟨">", 1, ⟨2, 3⟩⟩ <|
      .group ⟨⟨"(", ")"⟩, ⟨3, 9⟩, 0⟩ (.group ⟨⟨"(", ")"⟩, ⟨4, 8⟩, 0⟩ inner .nil) .nil
    let e : Expression String := ⟨"a->((-b))", 0, content, p.operators, id, .left⟩
    let op : Operator String := ⟨"(-", .unary id⟩
    p.vocabulary.check = .ok () ∧ p.parse "a->((-b))" = .ok e ∧ p.vocabulary.Shadows op.token ∧
      (∀ n ∈ e.nodes, n.IsUnshadowed p.vocabulary) ∧
      (p.operator op).parse "a->((-b))" = .ok { e with operators := e.operators ++ [op] } := by
  intro p inner content e op
  have hcheck : p.vocabulary.check = .ok () := by decide
  have hparse : p.parse "a->((-b))" = .ok e := by with_unfolding_all rfl
  have hshadows : p.vocabulary.Shadows op.token := ⟨"(", by decide, by decide⟩
  obtain ⟨hunshadowed, hoperator⟩ := parse_isUnshadowed hcheck
  refine ⟨hcheck, hparse, hshadows, hunshadowed _ e hparse, ?_⟩
  rw [hoperator op _ hshadows, hparse]
  rfl

end Parser

end Bracketed
