import Bracketed.Proofs.Scan.Parse
import Bracketed.Proofs.Snapshot

namespace Bracketed

variable {T : Type}

namespace Vocabulary

variable {v : Vocabulary} {enclosing : Option Grouping} {b : Boundary} {position padding : Nat}
  {text rest cs : List Char} {f : Forest}

/-- An operator is read as the first one that was registered with its token. -/
theorem Finds.index_eq {index : Nat} {token : String} (h : v.Finds enclosing cs (.operator index token)) :
    index = v.operators.idxOf token := by
  rw [finds_iff_prevails] at h
  obtain ⟨-, -, -, -, hoperator⟩ := h
  rw [operator?, List.find?_eq_some_iff_getElem] at hoperator
  obtain ⟨hbegins, i, hi, hentry, hbefore⟩ := hoperator
  rw [List.getElem_zipIdx, Nat.zero_add, Prod.mk.injEq] at hentry
  obtain ⟨htoken, rfl⟩ := hentry
  rw [List.length_zipIdx] at hi
  symm
  rw [List.idxOf, List.findIdx_eq hi, beq_iff_eq]
  refine ⟨htoken, ?_⟩
  intro j hj
  have hnot := hbefore j hj
  rw [List.getElem_zipIdx, Bool.not_eq_true'] at hnot
  rw [beq_eq_false_iff_ne]
  rintro rfl
  exact absurd hbegins (Bool.eq_false_iff.mp hnot)

/-- Text that begins with a token has its first sibling at its left end. -/
theorem Scans.elim_headSpan? (h : v.Scans enclosing .token position text rest padding f) :
    f.headSpan?.elim (position + text.length) Span.start = position := by
  cases h <;> rfl

/-- At a token no value begins. -/
theorem Scans.ne_value (h : v.Scans enclosing .token position text rest padding f) {w : Value} {others : Forest} :
    f ≠ .value w others := by
  rintro rfl
  cases h

/-- How long the run before two texts of the same end is, can be read off their snapshots. -/
theorem Scans.position_eq {operators : List (Operator T)} {enclosing' : Option Grouping}
    {position' padding' : Nat} {text' rest' : List Char} {f' : Forest}
    (h : v.Scans enclosing .token position text rest padding f)
    (h' : v.Scans enclosing' .token position' text' rest' padding' f')
    (hend : position + text.length = position' + text'.length)
    (hsnapshots : f.snapshots operators = f'.snapshots operators) : position = position' := by
  rw [← h.elim_headSpan?, ← h'.elim_headSpan?, hend, Forest.headSpan?_eq_of_snapshots_eq hsnapshots]

/-- Two texts of one length that are scanned at the same place as siblings with the same snapshots are scanned
as the same siblings, with as many blanks between them. -/
theorem Scans.eq_of_snapshots_eq {operators : List (Operator T)}
    (hoperators : v.operators = operators.map Operator.token)
    (h : v.Scans enclosing b position text rest padding f) {enclosing' : Option Grouping} {padding' : Nat}
    {text' rest' : List Char} {f' : Forest} (h' : v.Scans enclosing' b position text' rest' padding' f')
    (hlength : text.length = text'.length) (hsnapshots : f.snapshots operators = f'.snapshots operators) :
    f = f' ∧ padding = padding' := by
  induction h generalizing enclosing' padding' text' rest' f' with
  | stop enclosing position rest =>
    cases Forest.eq_nil_of_snapshots hsnapshots.symm
    cases h'
    exact ⟨rfl, rfl⟩
  | @blanks enclosing position run text rest padding f hpasses hblank htoken ih =>
    cases h' with
    | @blanks _ _ run' text' _ padding' f' _ _ htoken' =>
      simp only [List.length_append] at hlength
      have hruns := htoken.position_eq htoken' (by omega) hsnapshots
      have htexts : text.length = text'.length := by omega
      obtain ⟨hforest, hpadding⟩ := ih (hruns ▸ htoken') htexts hsnapshots
      exact ⟨hforest, by omega⟩
    | value =>
      obtain ⟨_, _, hf, _⟩ := Forest.exists_value_of_snapshots hsnapshots
      exact absurd hf htoken.ne_value
  | @value enclosing position lead word trail text rest padding f hpasses hlead hword htrail htoken ih =>
    obtain ⟨w, others, rfl, hvalue, hothers⟩ := Forest.exists_value_of_snapshots hsnapshots.symm
    cases h' with
    | blanks _ _ htoken' => exact absurd rfl htoken'.ne_value
    | @value _ _ lead' word' trail' text' _ _ _ _ _ _ _ htoken' =>
      obtain ⟨hword, hspan⟩ := Snapshot.ofValue_inj hvalue
      have hsum : (lead ++ (word ++ trail)).length + text.length =
          (lead' ++ (word' ++ trail')).length + text'.length := by
        rwa [← List.length_append, ← List.length_append]
      have hruns := htoken.position_eq htoken' (by omega) hothers.symm
      have htexts : text.length = text'.length := by omega
      obtain ⟨hforest, hpadding⟩ := ih (hruns ▸ htoken') htexts hothers.symm
      dsimp only at hword hspan
      refine ⟨?_, hpadding⟩
      rw [hforest, hword, hspan, Nat.add_left_cancel hruns]
  | @operator enclosing position index token text rest padding f hfinds hrun ih =>
    obtain ⟨u, others, rfl, huse, hothers⟩ := Forest.exists_operator_of_snapshots hsnapshots.symm
    cases h' with
    | @operator _ _ index' token' text' _ _ _ hfinds' hrun' =>
      have hregistered : v.operators[index]? = some token := hfinds.spec.1
      have hregistered' : v.operators[index']? = some token' := hfinds'.spec.1
      rw [hoperators] at hregistered hregistered'
      have hsame := congrArg Snapshot.label huse
      obtain rfl : token' = token := by
        rwa [Snapshot.label_ofOperator hregistered', Snapshot.label_ofOperator hregistered] at hsame
      rw [List.length_append, List.length_append, Nat.add_right_inj] at hlength
      obtain ⟨hforest, hpadding⟩ := ih hrun' hlength hothers.symm
      refine ⟨?_, hpadding⟩
      rw [hforest, hfinds.index_eq, hfinds'.index_eq]
  | @group enclosing position stop inner padding g inside text rest content f hopening hcontent hclosing hstop
      hrun ihc ihr =>
    obtain ⟨d, content', others, rfl, hgrouping, hspan, hchildren, hothers⟩ :=
      Forest.exists_group_of_snapshots hsnapshots.symm
    cases h' with
    | @group _ _ stop' inner' _ _ inside' text' _ _ _ _ hcontent' _ hstop' hrun' =>
      dsimp only at hgrouping hspan
      subst hgrouping
      obtain ⟨-, rfl⟩ := Span.mk.inj hspan
      simp only [List.length_append] at hlength
      obtain ⟨rfl, rfl⟩ := ihc hcontent' (by omega) hchildren.symm
      obtain ⟨rfl, hpadding⟩ := ihr hrun' (by omega) hothers.symm
      exact ⟨rfl, hpadding⟩

end Vocabulary

namespace Parser

/-- A snapshot shows all of a tree, though not the numbers of the nodes, the operators' places in the list of
registered ones, and how many blanks stand around values and in groups. Two texts with the same snapshot have
the same nodes with the same numbers, down to those. -/
theorem nodes_eq_of_snapshot_eq {p : Parser T} {source source' : String} {e e' : Expression T}
    (h : p.parse source = .ok e) (h' : p.parse source' = .ok e') (hsnapshot : e.snapshot = e'.snapshot) :
    e.nodes = e'.nodes := by
  obtain ⟨_, hscans, hsource, hoperators, _⟩ := parse_spec h
  obtain ⟨_, hscans', hsource', hoperators', _⟩ := parse_spec h'
  have hspan : e.root.span = e'.root.span := by
    have hshown := congrArg (fun s => s.attributes.get? "span") hsnapshot
    apply Span.text_injective
    simpa only [Expression.snapshot, Snapshot.withChildren, Snapshot.get?_withAttribute_self,
      Option.some.injEq] using hshown
  have hends : e.source.length = e'.source.length := congrArg Span.stop hspan
  have hlength : source.toList.length = source'.toList.length := by
    rwa [String.length_toList, String.length_toList, ← hsource, ← hsource']
  have hchildren : e.content.snapshots e.operators = e'.content.snapshots e'.operators :=
    congrArg Snapshot.children hsnapshot
  rw [hoperators, hoperators'] at hchildren
  obtain ⟨hcontent, hpadding⟩ := hscans.eq_of_snapshots_eq rfl hscans' hlength hchildren
  rw [Expression.nodes, Expression.nodes, Expression.root, Expression.root, hends, hcontent, hpadding]

theorem nodes_eq_of_snapshot_eq_bracketing :
    bracketing.parse "a - b - (~c)" = .ok bracketed ∧
      bracketing.parse "a -\tb - (~c)" = .ok { bracketed with source := "a -\tb - (~c)" } ∧
      bracketed.snapshot = { bracketed with source := "a -\tb - (~c)" : Expression String }.snapshot ∧
      bracketed.nodes = { bracketed with source := "a -\tb - (~c)" : Expression String }.nodes := by
  have hparse : bracketing.parse "a -\tb - (~c)" = .ok { bracketed with source := "a -\tb - (~c)" } := by
    with_unfolding_all rfl
  have hsnapshot :
      bracketed.snapshot = { bracketed with source := "a -\tb - (~c)" : Expression String }.snapshot := by
    have hlength : bracketed.source.length = "a -\tb - (~c)".length := by decide
    rw [Expression.snapshot, Expression.snapshot, Expression.root, Expression.root, hlength]
  exact ⟨parse_bracketing, hparse, hsnapshot, nodes_eq_of_snapshot_eq parse_bracketing hparse hsnapshot⟩

end Parser

end Bracketed
