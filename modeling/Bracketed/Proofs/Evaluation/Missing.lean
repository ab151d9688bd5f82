import Bracketed.Proofs.Evaluation.Spacing
import Bracketed.Proofs.Scan.Joining

namespace Bracketed

variable {T : Type}

namespace Forest

variable {operators : List (Operator T)} {a : Associativity}

/-- Behind siblings that have no fault themselves, others are read like what may stand behind an operand. -/
theorem fault_append {f : Forest} {expected : Expected} (h : f.fault operators a expected = none) (behind : Forest) :
    (f.append behind).fault operators a expected = behind.fault operators a .operator := by
  induction f generalizing expected with
  | nil =>
    cases expected with
    | operator => rfl
    | first | right before | applied position stray => cases h
  | value v rest ih =>
    rw [fault, Option.or_eq_none_iff] at h
    rw [append, fault, h.1, Option.none_or, ih h.2]
  | operator o rest ih =>
    rw [fault] at h
    rw [append, fault]
    by_cases hbinary : o.IsOfKind operators .binary
    · rw [if_pos hbinary, Option.or_eq_none_iff] at h
      rw [if_pos hbinary, h.1, Option.none_or, ih h.2]
    · rw [if_neg hbinary] at h
      rw [if_neg hbinary, ih h]
  | group e content rest ihc ihr =>
    rw [fault, Option.or_eq_none_iff, Option.or_eq_none_iff] at h
    rw [append, fault, h.1, h.2.1, Option.none_or, Option.none_or, ihr h.2.2]

/-- A binary operator that nothing stands behind is the first fault, if what stands before it has none. -/
theorem fault_append_operator {f : Forest} (h : f.fault operators a .first = none) {o : OperatorUse}
    (hbinary : o.IsOfKind operators .binary) :
    (f.append (.operator o .nil)).fault operators a .first =
      some (.invalidOperand .missingRight (some o.span.start)) := by
  rw [fault_append h, fault, if_pos hbinary]
  rfl

/-- Of two groups without faults that stand side by side the second one is the first fault. -/
theorem fault_group_group {content content' : Forest} (h : content.fault operators a .first = none)
    (h' : content'.fault operators a .first = none) (e e' : Enclosure) (rest : Forest) :
    (group e content (group e' content' rest)).fault operators a .first =
      some (.missingOperator (some e'.span.start)) := by
  rw [fault, fault, h, h']
  rfl

end Forest

namespace Parser

variable {p : Parser T}

/-- What a text that evaluates consists of has no fault, wherever it stands. -/
theorem fault_eq_none {source : String} {e : Expression T} (h : p.parse source = .ok e) {leaf : String → T}
    {r : Resolved T} (hr : e.evaluateWith leaf = .ok r) {f : Forest} (houtline : f.outline = e.content.outline) :
    f.fault p.operators p.associativity .first = none := by
  have hrun : (e.run leaf).error? = none := by
    rw [Run.error?]
    rw [Expression.evaluateWith] at hr
    rw [hr]
  rw [error?_run h, Option.map_eq_none_iff] at hrun
  rw [← Option.map_eq_none_iff, Forest.map_unplaced_fault_of_outline_eq houtline rfl, hrun]
  rfl

theorem evaluateWith_of_fault {source : String} {e : Expression T} (h : p.parse source = .ok e) {err : EvalError}
    (herr : e.content.fault p.operators p.associativity .first = some err) (leaf : String → T) :
    e.evaluateWith leaf = .error (err.orAt 0) := by
  have hrun := error?_run h leaf
  rw [herr] at hrun
  exact Run.error?_eq_some_iff.mp hrun

section

variable (hfree : p.vocabulary.IsBlankFree) {index : Nat} {t : String} {f : T → T → T}
  (hoperator : p.operators[index]? = some ⟨t, .binary f⟩) (hshadows : ¬ (p.vocabulary.takeOperators index).Shadows t)
  {front : String} {e : Expression T} (h : p.parse front = .ok e)
include hfree hoperator hshadows h

/-- A text with a space and an operator behind it is read as what the text is read as and the operator behind it. -/
theorem exists_parse_dangling :
    ∃ (d : Expression T) (content : Forest) (o : OperatorUse), p.parse (front ++ " " ++ t) = .ok d ∧
      d.content = content.append (.operator o .nil) ∧ content.outline = e.content.outline ∧ o.operator = index ∧
      o.span.start = front.length + 1 := by
  obtain ⟨hvalid, hfront, _⟩ := parse_spec h
  obtain ⟨padding, content, houtline, hscans⟩ := Vocabulary.exists_scans_operator hvalid hfree
    (operators_vocabulary hoperator) hshadows ⟨_, _, hfront, rfl⟩ (p.vocabulary.scans_end _)
    (Vocabulary.separates_nil _)
  have htext : front.toList ++ [' '] ++ (t.toList ++ []) = (front ++ " " ++ t).toList := by
    simp [String.toList_append]
  rw [htext] at hscans
  have hstart : front.toList.length + 1 = front.length + 1 := by rw [String.length_toList]
  exact ⟨_, content, _, parse_of_scans hvalid hscans, rfl, houtline, rfl, hstart⟩

/-- A text that evaluates, with a space and a binary operator behind it, parses, and then lacks the operand to the right
of this operator, whichever way operators associate. No token may have blanks in it, and none that is tried before the
operator may shadow it. -/
theorem parse_dangling {leaf : String → T} {r : Resolved T} (hr : e.evaluateWith leaf = .ok r) :
    ∃ d, p.parse (front ++ " " ++ t) = .ok d ∧
      ∀ leaf, d.evaluateWith leaf = .error (.invalidOperand .missingRight (some (front.length + 1))) := by
  obtain ⟨d, content, o, hparse, hcontent, houtline, rfl, hstart⟩ := exists_parse_dangling hfree hoperator hshadows h
  have hbinary : o.IsOfKind p.operators .binary := by
    rw [OperatorUse.IsOfKind, hoperator]
    rfl
  have hfault := Forest.fault_append_operator (fault_eq_none h hr houtline) hbinary
  rw [← hcontent, hstart] at hfault
  exact ⟨d, hparse, evaluateWith_of_fault hparse hfault⟩

end

theorem parse_dangling_bracketing :
    let content := Forest.value ⟨"a", 2, ⟨0, 1⟩⟩ <| .operator ⟨1, ⟨2, 3⟩⟩ <|
      .group ⟨⟨"(", ")"⟩, ⟨4, 8⟩, 0⟩ (.operator ⟨0, ⟨5, 6⟩⟩ <| .value ⟨"c", 1, ⟨6, 7⟩⟩ .nil) .nil
    let e : Expression String := ⟨"a - (~c)", 1, content, bracketing.operators, id, .left⟩
    bracketing.vocabulary.IsBlankFree ∧
      bracketing.operators[1]? = some ⟨"-", .binary fun x y => "[" ++ x ++ "-" ++ y ++ "]"⟩ ∧
      ¬ (bracketing.vocabulary.takeOperators 1).Shadows "-" ∧ bracketing.parse "a - (~c)" = .ok e ∧
      e.evaluateWith id = .ok ⟨"[a-~c]", 8⟩ ∧ ∃ d, bracketing.parse ("a - (~c)" ++ " " ++ "-") = .ok d ∧
        ∀ leaf, d.evaluateWith leaf = .error (.invalidOperand .missingRight (some 9)) := by
  intro content e
  have hfree : bracketing.vocabulary.IsBlankFree := prefixFree_bracketing.isBlankFree
  have hoperator : bracketing.operators[1]? = some ⟨"-", .binary fun x y => "[" ++ x ++ "-" ++ y ++ "]"⟩ := rfl
  have hshadows : ¬ (bracketing.vocabulary.takeOperators 1).Shadows "-" := by decide
  have hparse : bracketing.parse "a - (~c)" = .ok e := by with_unfolding_all rfl
  have heval : e.evaluateWith id = .ok ⟨"[a-~c]", 8⟩ := by with_unfolding_all rfl
  exact ⟨hfree, hoperator, hshadows, hparse, heval, parse_dangling hfree hoperator hshadows hparse heval⟩

section

variable (hfree : p.vocabulary.IsBlankFree) {index : Nat} {g : Grouping} (hgrouping : p.groupings[index]? = some g)
  (hearlier : ∀ d ∈ p.groupings.take index, ¬ d.opening.toList <+: g.opening.toList)
  (hend : ∀ d ∈ p.groupings, ¬ d.opening.toList <+: g.closing.toList)
include hfree hgrouping hearlier hend

/-- Two texts in groups that stand side by side are read as two groups, which hold what the texts are read as. -/
theorem exists_parse_groups {left right : String} {l r : Expression T} (hl : p.parse left = .ok l)
    (hr : p.parse right = .ok r) :
    ∃ (e : Expression T) (before behind : Enclosure) (content content' : Forest),
      p.parse (g.enclose left ++ " " ++ g.enclose right) = .ok e ∧
      e.content = .group before content (.group behind content' .nil) ∧
      behind.span.start = g.opening.length + left.length + g.closing.length + 3 ∧
      content.outline = l.content.outline ∧ content'.outline = r.content.outline := by
  obtain ⟨hvalid, hleft, _⟩ := parse_spec hl
  obtain ⟨_, hright, _⟩ := parse_spec hr
  have hspace : ∀ c ∈ [' '], Text.isBlank c = true := Outline.isBlank_of_mem_space
  -- The scan is built from its end: nothing, the second group, the space before it, and the first group.
  let start := 0 + (g.enclose left).length + 1
  obtain ⟨inner', content', houtline', hsecond⟩ := Vocabulary.exists_scans_group hvalid hfree hgrouping hearlier hend
    ⟨_, _, hright, rfl⟩ (p.vocabulary.scans_end (start + (g.enclose right).length)) (Vocabulary.separates_nil _)
  have hgap := Vocabulary.Scans.blanks (hfree.passes hvalid.ne_empty (by simp) hspace _) hspace hsecond
  obtain ⟨inner, content, houtline, hfirst⟩ := Vocabulary.exists_scans_group hvalid hfree hgrouping hearlier hend
    ⟨_, _, hleft, rfl⟩ hgap (hfree.separates (List.cons_ne_nil ' ' []) hspace _ _)
  have htext : (g.enclose left).toList ++ ([' '] ++ ((g.enclose right).toList ++ [])) =
      (g.enclose left ++ " " ++ g.enclose right).toList := by
    simp [String.toList_append]
  have hscans := hfirst.ofToken
  rw [htext] at hscans
  have hstart : start = g.opening.length + left.length + g.closing.length + 3 := by
    simp only [start, g.length_enclose]
    omega
  exact ⟨_, _, _, content, content', parse_of_scans hvalid hscans, rfl, hstart, houtline, houtline'⟩

/-- Two texts that evaluate, each in a group of its own and the groups side by side, parse, and then lack an operator
before the second group, whichever way operators associate. No token may have blanks in it, no start delimiter that is
tried before the grouping's own may stand in its place, and none in place of its end delimiter. -/
theorem parse_adjacent_groups {left right : String} {l r : Expression T} (hl : p.parse left = .ok l)
    (hr : p.parse right = .ok r) {leaf : String → T} {x y : Resolved T} (hx : l.evaluateWith leaf = .ok x)
    (hy : r.evaluateWith leaf = .ok y) :
    ∃ e, p.parse (g.enclose left ++ " " ++ g.enclose right) = .ok e ∧ ∀ leaf, e.evaluateWith leaf =
      .error (.missingOperator (some (g.opening.length + left.length + g.closing.length + 3))) := by
  obtain ⟨e, before, behind, content, content', hparse, hcontent, hstart, houtline, houtline'⟩ :=
    exists_parse_groups hfree hgrouping hearlier hend hl hr
  have hfault :=
    Forest.fault_group_group (fault_eq_none hl hx houtline) (fault_eq_none hr hy houtline') before behind .nil
  rw [← hcontent, hstart] at hfault
  exact ⟨e, hparse, evaluateWith_of_fault hparse hfault⟩

end

theorem parse_adjacent_groups_bracketing :
    let p := bracketing.grouping "[" "]]"
    let l : Expression String := ⟨"a - b", 0, .value ⟨"a", 2, ⟨0, 1⟩⟩ <| .operator ⟨1, ⟨2, 3⟩⟩ <|
      .value ⟨"b", 2, ⟨4, 5⟩⟩ .nil, p.operators, id, .left⟩
    let r : Expression String := ⟨"~c", 0, .operator ⟨0, ⟨0, 1⟩⟩ <| .value ⟨"c", 1, ⟨1, 2⟩⟩ .nil, p.operators, id,
      .left⟩
    p.vocabulary.IsBlankFree ∧ p.groupings[1]? = some ⟨"[", "]]"⟩ ∧
      (∀ d ∈ p.groupings.take 1, ¬ d.opening.toList <+: "[".toList) ∧
      (∀ d ∈ p.groupings, ¬ d.opening.toList <+: "]]".toList) ∧
      p.parse "a - b" = .ok l ∧ p.parse "~c" = .ok r ∧ l.evaluateWith id = .ok ⟨"[a-b]", 5⟩ ∧
      r.evaluateWith id = .ok ⟨"~c", 2⟩ ∧ ∃ e, p.parse "[ a - b ]] [ ~c ]]" = .ok e ∧
        ∀ leaf, e.evaluateWith leaf = .error (.missingOperator (some 11)) := by
  intro p l r
  have htexts : p.vocabulary.texts = ["~", "-", "(", "[", ")", "]]"] := by decide
  have hfree : p.vocabulary.IsBlankFree := by
    rw [Vocabulary.IsBlankFree, htexts]
    simp only [List.forall_mem_cons, String.reduceToList, List.not_mem_nil, false_implies, implies_true, and_true]
    exact ⟨rfl, rfl, rfl, rfl, rfl, rfl, rfl⟩
  have hgrouping : p.groupings[1]? = some ⟨"[", "]]"⟩ := rfl
  have hearlier : ∀ d ∈ p.groupings.take 1, ¬ d.opening.toList <+: "[".toList := by decide
  have hend : ∀ d ∈ p.groupings, ¬ d.opening.toList <+: "]]".toList := by decide
  have hl : p.parse "a - b" = .ok l := by with_unfolding_all rfl
  have hr : p.parse "~c" = .ok r := by with_unfolding_all rfl
  have hx : l.evaluateWith id = .ok ⟨"[a-b]", 5⟩ := by with_unfolding_all rfl
  have hy : r.evaluateWith id = .ok ⟨"~c", 2⟩ := by with_unfolding_all rfl
  have htext : Grouping.enclose ⟨"[", "]]"⟩ "a - b" ++ " " ++ Grouping.enclose ⟨"[", "]]"⟩ "~c" =
      "[ a - b ]] [ ~c ]]" := by decide
  obtain ⟨e, hparse, herr⟩ := parse_adjacent_groups hfree hgrouping hearlier hend hl hr hx hy
  rw [htext] at hparse
  exact ⟨hfree, hgrouping, hearlier, hend, hl, hr, hx, hy, e, hparse, herr⟩

end Parser

end Bracketed
