import Bracketed.Proofs.Evaluation.Consumption
import Bracketed.Proofs.Evaluation.Fault
import Bracketed.Proofs.Evaluation.Outline
import Bracketed.Proofs.Scan.Spacing

namespace Bracketed

/-- The error without the place that it is reported at. -/
def EvalError.unplaced : EvalError → EvalError
  | missingOperator _ => missingOperator none
  | invalidOperand fault _ => invalidOperand fault none

@[simp] theorem EvalError.unplaced_orAt (e : EvalError) (position : Nat) :
    (e.orAt position).unplaced = e.unplaced := by
  cases e <;> rfl

/-- The node without its place in the source, and without the blanks that it accounts for. -/
def Node.unplaced : Node → Node
  | group g => group { g with span := default, padding := 0 }
  | value v => value { v with span := default, rawLength := 0 }
  | operator o => operator { o with span := default }

/-- Where the tokens of a node begin and end. The root stands for the source, and has its ends. -/
def Node.edges : Node → List Nat
  | group g => [g.span.start, g.interior.start, g.interior.stop, g.span.stop]
  | value _ => []
  | operator o => [o.span.start, o.span.stop]

/-- What may stand next, without the places that it refers to. -/
def Expected.unplaced : Expected → Expected
  | first => first
  | right _ => right 0
  | applied _ stray => applied 0 stray
  | operator => operator

namespace Forest

theorem exists_mem_edges_nodes_iff {f : Forest} {parent first p : Nat} :
    (∃ n ∈ f.nodes parent first, p ∈ n.edges) ↔ p ∈ f.edges := by
  rw [← List.mem_flatMap]
  induction f generalizing parent first with
  | nil => exact Iff.rfl
  | value v rest ih => exact ih
  | operator o rest ih =>
    rw [nodes, List.flatMap_cons, List.mem_append, ih]
    simp only [Node.edges, edges, List.mem_cons, List.not_mem_nil, or_false, or_assoc]
  | group e content rest ihc ihr =>
    rw [nodes_group, List.flatMap_cons, List.flatMap_append, List.mem_append, List.mem_append, ihc, ihr]
    simp only [Node.edges, GroupNode.interior, Enclosure.node, edges, List.mem_cons, List.mem_append, List.not_mem_nil,
      or_false, or_assoc]

theorem size_of_outline_eq {f f' : Forest} (h : f'.outline = f.outline) : f'.size = f.size := by
  induction f generalizing f' with
  | nil => rw [eq_nil_of_outline h]
  | value v rest ih =>
    obtain ⟨v', rest', rfl, _, hrest⟩ := exists_of_outline_value h
    rw [size, size, ih hrest]
  | operator o rest ih =>
    obtain ⟨o', rest', rfl, _, hrest⟩ := exists_of_outline_operator h
    rw [size, size, ih hrest]
  | group e content rest ihc ihr =>
    obtain ⟨e', content', rest', rfl, _, hcontent, hrest⟩ := exists_of_outline_group h
    rw [size, size, ihc hcontent, ihr hrest]

theorem ids_of_outline_eq {f f' : Forest} (h : f'.outline = f.outline) (first : Nat) :
    f'.ids first = f.ids first := by
  induction f generalizing f' first with
  | nil => rw [eq_nil_of_outline h]
  | value v rest ih =>
    obtain ⟨v', rest', rfl, _, hrest⟩ := exists_of_outline_value h
    rw [ids, ids, ih hrest]
  | operator o rest ih =>
    obtain ⟨o', rest', rfl, _, hrest⟩ := exists_of_outline_operator h
    rw [ids, ids, ih hrest]
  | group e content rest ihc ihr =>
    obtain ⟨e', content', rest', rfl, _, hcontent, hrest⟩ := exists_of_outline_group h
    rw [ids, ids, size_of_outline_eq hcontent, ihr hrest]

/-- The outline holds all of the nodes but their places and blanks. -/
theorem map_unplaced_nodes_of_outline_eq {f f' : Forest} (h : f'.outline = f.outline) (parent first : Nat) :
    (f'.nodes parent first).map Node.unplaced = (f.nodes parent first).map Node.unplaced := by
  induction f generalizing f' parent first with
  | nil => rw [eq_nil_of_outline h]
  | value v rest ih =>
    obtain ⟨v', rest', rfl, htext, hrest⟩ := exists_of_outline_value h
    rw [nodes, nodes, List.map_cons, List.map_cons, ih hrest, Node.unplaced, Node.unplaced, htext]
  | operator o rest ih =>
    obtain ⟨o', rest', rfl, hindex, hrest⟩ := exists_of_outline_operator h
    rw [nodes, nodes, List.map_cons, List.map_cons, ih hrest, Node.unplaced, Node.unplaced, hindex]
  | group e content rest ihc ihr =>
    obtain ⟨e', content', rest', rfl, hgrouping, hcontent, hrest⟩ := exists_of_outline_group h
    rw [nodes_group, nodes_group, List.map_cons, List.map_cons, List.map_append, List.map_append, ihc hcontent,
      ihr hrest, size_of_outline_eq hcontent, Node.unplaced, Node.unplaced, Enclosure.node, Enclosure.node,
      ids_of_outline_eq hcontent, hgrouping]

section

variable {T : Type} {operators : List (Operator T)} {a : Associativity}

theorem map_unplaced_faultAtOperand {expected expected' : Expected} (h : expected'.unplaced = expected.unplaced)
    (start start' : Nat) :
    (expected'.faultAtOperand a start').map EvalError.unplaced =
      (expected.faultAtOperand a start).map EvalError.unplaced := by
  have hstray : expected'.isStray = expected.isStray := by
    cases expected <;> cases expected' <;> cases h <;> rfl
  rw [Expected.faultAtOperand, Expected.faultAtOperand, hstray]
  split <;> rfl

theorem map_unplaced_faultAtBinary {expected expected' : Expected} (h : expected'.unplaced = expected.unplaced)
    (start start' : Nat) :
    (expected'.faultAtBinary a start').map EvalError.unplaced =
      (expected.faultAtBinary a start).map EvalError.unplaced := by
  cases expected <;> cases expected' <;> cases h <;> cases a <;> rfl

/-- What is wrong with siblings does not depend on their places, only where it is reported does. -/
theorem map_unplaced_fault_of_outline_eq {f f' : Forest} (h : f'.outline = f.outline)
    {expected expected' : Expected} (hexpected : expected'.unplaced = expected.unplaced) :
    (f'.fault operators a expected').map EvalError.unplaced =
      (f.fault operators a expected).map EvalError.unplaced := by
  induction f generalizing f' expected expected' with
  | nil =>
    rw [eq_nil_of_outline h]
    cases expected <;> cases expected' <;> cases hexpected <;> rfl
  | value v rest ih =>
    obtain ⟨v', rest', rfl, _, hrest⟩ := exists_of_outline_value h
    rw [fault, fault, Option.map_or, Option.map_or, map_unplaced_faultAtOperand hexpected, ih hrest rfl]
  | operator o rest ih =>
    obtain ⟨o', rest', rfl, hindex, hrest⟩ := exists_of_outline_operator h
    have hkind : o'.IsOfKind operators .binary ↔ o.IsOfKind operators .binary := by
      rw [OperatorUse.IsOfKind, OperatorUse.IsOfKind, hindex]
    rw [fault, fault]
    by_cases hbinary : o.IsOfKind operators .binary
    · have hright : (Expected.right o'.span.start).unplaced = (Expected.right o.span.start).unplaced := rfl
      rw [if_pos hbinary, if_pos (hkind.mpr hbinary), Option.map_or, Option.map_or,
        map_unplaced_faultAtBinary hexpected o.span.start, ih hrest hright]
    · rw [if_neg hbinary, if_neg (mt hkind.mp hbinary)]
      refine ih hrest ?_
      cases expected <;> cases expected' <;> cases hexpected <;> rfl
  | group e content rest ihc ihr =>
    obtain ⟨e', content', rest', rfl, _, hcontent, hrest⟩ := exists_of_outline_group h
    have hinside (position position' : Nat) :
        ((content'.fault operators a .first).map (EvalError.orAt position')).map EvalError.unplaced =
          ((content.fault operators a .first).map (EvalError.orAt position)).map EvalError.unplaced := by
      have horAt (position : Nat) : EvalError.unplaced ∘ EvalError.orAt position = EvalError.unplaced :=
        funext fun err => err.unplaced_orAt position
      rw [Option.map_map, Option.map_map, horAt, horAt, ihc hcontent rfl]
    rw [fault, fault, Option.map_or, Option.map_or, Option.map_or, Option.map_or, hinside,
      map_unplaced_faultAtOperand hexpected, ihr hrest rfl]

end

end Forest

variable {T : Type}

/-- The nodes of `s` are those of `e` but for their places and blanks. It evaluates to the same value, which
accounts for `k` characters more, or fails with the same error, which may be reported at another place. -/
structure Expression.Respaced (k : Nat) (e s : Expression T) : Prop where
  nodes : s.nodes.map Node.unplaced = e.nodes.map Node.unplaced
  leaf : s.leaf = e.leaf
  evaluateWith_ok : ∀ leaf r, e.evaluateWith leaf = .ok r → s.evaluateWith leaf = .ok ⟨r.value, r.consumed + k⟩
  evaluateWith_error : ∀ leaf err, e.evaluateWith leaf = .error err →
    ∃ err', s.evaluateWith leaf = .error err' ∧ err'.unplaced = err.unplaced

theorem Expression.map_unplaced_nodes_of_outline_eq {e s : Expression T} (h : s.content.outline = e.content.outline) :
    s.nodes.map Node.unplaced = e.nodes.map Node.unplaced := by
  rw [nodes, nodes, List.map_cons, List.map_cons, Forest.map_unplaced_nodes_of_outline_eq h, Node.unplaced,
    Node.unplaced, root, root, Forest.ids_of_outline_eq h]

/-- The value of a scanned text depends on nothing but the outline, and accounts for all of the text. -/
theorem Expression.evaluateWith_of_outline_eq {v : Vocabulary} {e s : Expression T} {text : List Char}
    (h : s.content.outline = e.content.outline) (hoperators : s.operators = e.operators)
    (hassociativity : s.associativity = e.associativity)
    (hscans : v.Scans none .run 0 text [] s.padding s.content) (hv : v.operators = s.operators.map Operator.token)
    {leaf : String → T} {r : Resolved T} (hr : e.evaluateWith leaf = .ok r) :
    s.evaluateWith leaf = .ok ⟨r.value, text.length⟩ := by
  refine evaluateWith_of_nestAlike hr h hoperators ?_ hscans hv
  rw [hassociativity]
  exact .refl _ _ _

/-- The error of a scanned text depends on nothing but the outline, except for its place. -/
theorem Expression.evaluateWith_error_of_outline_eq {v : Vocabulary} {e s : Expression T}
    (h : s.content.outline = e.content.outline) (hoperators : s.operators = e.operators)
    (hassociativity : s.associativity = e.associativity) (hv : v.operators.length = e.operators.length)
    (he : e.content.IsRegistered v) (hs : s.content.IsRegistered v) {leaf : String → T} {err : EvalError}
    (herr : e.evaluateWith leaf = .error err) :
    ∃ err', s.evaluateWith leaf = .error err' ∧ err'.unplaced = err.unplaced := by
  have hrun {e : Expression T} (hv : v.operators.length = e.operators.length) (he : e.content.IsRegistered v) :
      (e.run leaf).error?.map EvalError.unplaced =
        (e.content.fault e.operators e.associativity .first).map EvalError.unplaced := by
    rw [error?_run hv he, Option.map_map]
    congr 1
    exact funext fun err => err.unplaced_orAt 0
  have hfault : (s.run leaf).error?.map EvalError.unplaced = some err.unplaced := by
    rw [hrun (hoperators ▸ hv) hs, hoperators, hassociativity, Forest.map_unplaced_fault_of_outline_eq h rfl,
      ← hrun hv he, Run.error?_eq_some_iff.mpr herr]
    rfl
  obtain ⟨err', herr', hunplaced⟩ := Option.map_eq_some_iff.mp hfault
  exact ⟨err', Run.error?_eq_some_iff.mp herr', hunplaced⟩

/-- The edges of an expression's nodes are the ends of its source, and where its tokens begin and end. -/
theorem Expression.hasEdge {e : Expression T} {front back : List Char} (hsource : e.source.toList = front ++ back)
    (h : ∃ n ∈ e.nodes, front.length ∈ n.edges) : e.content.HasEdge 0 front back := by
  have hlength : e.source.length = front.length + back.length := by
    rw [← String.length_toList, hsource, List.length_append]
  obtain ⟨n, hn, hedge⟩ := h
  rcases List.mem_cons.mp hn with rfl | hn
  · have hends : front.length = 0 ∨ front.length = e.source.length := by
      simpa [Node.edges, root, GroupNode.interior] using hedge
    rcases hends with hstart | hstop
    · exact Or.inl (List.length_eq_zero_iff.mp hstart)
    · exact Or.inr (Or.inl (List.length_eq_zero_iff.mp (by omega)))
  · have hmem : front.length ∈ e.content.edges := Forest.exists_mem_edges_nodes_iff.mp ⟨n, hn, hedge⟩
    rw [← Nat.zero_add front.length] at hmem
    exact Or.inr (Or.inr hmem)

namespace Parser

/-- Blanks at the ends of a text, or next to a token, make no difference but to places and to lengths, if no
token has a blank among its characters. -/
theorem parse_insert_blanks {p : Parser T} {front back : String} {e : Expression T}
    (h : p.parse (front ++ back) = .ok e) (hfree : p.vocabulary.IsBlankFree)
    (hedge : ∃ n ∈ e.nodes, front.length ∈ n.edges) {w : String} (hw : ∀ c ∈ w.toList, Text.isBlank c = true) :
    ∃ s, p.parse (front ++ w ++ back) = .ok s ∧ e.Respaced w.length s := by
  obtain ⟨hvalid, hscans, hsource, hoperators, hassociativity⟩ := parse_spec h
  have htext : (front ++ w ++ back).toList = front.toList ++ (w.toList ++ back.toList) := by
    rw [String.toList_append, String.toList_append, List.append_assoc]
  rw [← String.length_toList] at hedge
  rw [String.toList_append] at hscans
  have hplace := Expression.hasEdge (by rw [hsource, String.toList_append]) hedge
  obtain ⟨padding, f, hspaced, houtline⟩ := hscans.insert_blanks hfree hw (by simp) hvalid hplace
  rw [← htext] at hspaced
  refine ⟨_, parse_of_scans hvalid hspaced, Expression.map_unplaced_nodes_of_outline_eq houtline,
    (leaf_of_parse h).symm, ?_, ?_⟩
  · intro leaf r hr
    have hv : p.vocabulary.operators = e.operators.map Operator.token := by
      rw [hoperators]
      rfl
    have hself := Expression.evaluateWith_of_outline_eq rfl rfl rfl hscans hv hr
    rw [hr, Except.ok.injEq] at hself
    have hconsumed : r.consumed + w.length = (front ++ w ++ back).toList.length := by
      rw [hself, htext]
      simp only [List.length_append, String.length_toList]
      omega
    rw [hconsumed]
    exact Expression.evaluateWith_of_outline_eq houtline hoperators.symm hassociativity.symm hspaced rfl hr
  · intro leaf err herr
    refine Expression.evaluateWith_error_of_outline_eq houtline hoperators.symm hassociativity.symm ?_
      hscans.isRegistered hspaced.isRegistered herr
    rw [hoperators]
    exact List.length_map _

theorem parse_insert_blanks_bracketing :
    bracketing.parse ("a - b - (" ++ "~c)") = .ok bracketed ∧ bracketing.vocabulary.IsBlankFree ∧
      (∃ n ∈ bracketed.nodes, "a - b - (".length ∈ n.edges) ∧ (∀ c ∈ "\t ".toList, Text.isBlank c = true) ∧
      ∃ s, bracketing.parse ("a - b - (" ++ "\t " ++ "~c)") = .ok s ∧ bracketed.Respaced "\t ".length s ∧
        s.evaluateWith id = .ok ⟨"[[a-b]-~c]", 14⟩ := by
  have hparse : bracketing.parse ("a - b - (" ++ "~c)") = .ok bracketed := by
    rw [show "a - b - (" ++ "~c)" = "a - b - (~c)" by decide]
    exact parse_bracketing
  have hfree : bracketing.vocabulary.IsBlankFree := prefixFree_bracketing.isBlankFree
  have hedge : ∃ n ∈ bracketed.nodes, "a - b - (".length ∈ n.edges :=
    ⟨.group ⟨some 0, some ⟨"(", ")"⟩, [6, 7], ⟨8, 12⟩, 0⟩, by decide, by decide⟩
  have hblank : ∀ c ∈ "\t ".toList, Text.isBlank c = true := by
    simp only [List.forall_mem_cons, String.reduceToList, List.not_mem_nil, false_implies, implies_true, and_true]
    exact ⟨rfl, rfl⟩
  obtain ⟨s, hspacedParse, hspaced⟩ := parse_insert_blanks hparse hfree hedge hblank
  exact ⟨hparse, hfree, hedge, hblank, s, hspacedParse, hspaced, hspaced.evaluateWith_ok id _ evaluateWith_bracketed⟩

end Parser

end Bracketed
