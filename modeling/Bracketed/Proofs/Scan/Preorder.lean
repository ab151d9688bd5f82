import Bracketed.Proofs.Scan.Scanner
import Bracketed.Proofs.Scanner

namespace Bracketed.Parser

variable {T : Type} {p : Parser T} {source : String} {e : Expression T}

/-- The nodes that a text is scanned to have been built in order, and all but the root are registered. -/
theorem scan_isSound (p : Parser T) (source : String) : Scanner.Yields (p.scan source) fun nodes =>
    Node.GrowsAt nodes 0 ∧ ∀ id n, 0 < id → nodes[id]? = some n → n.IsRegistered p.vocabulary := by
  have hcheck : Scanner.Yields (p.vocabulary.check.mapError .failed) fun _ => True := fun _ _ => trivial
  exact hcheck.bind fun _ _ => (Scanner.isSound_atStart p.vocabulary source).scanFrom

theorem operator_lt_of_scan {nodes : List Node} (h : p.scan source = .ok nodes) {o : OperatorUse}
    (ho : .operator o ∈ nodes) : o.operator < p.operators.length := by
  obtain ⟨hgrows, hregistered⟩ := p.scan_isSound source nodes h
  obtain ⟨root, hroot, _⟩ := hgrows.root
  obtain ⟨id, hid⟩ := List.mem_iff_getElem?.mp ho
  have hpos : 0 < id := by
    refine Nat.pos_of_ne_zero ?_
    rintro rfl
    rw [hroot] at hid
    cases hid
  have hindex : o.operator < (p.operators.map Operator.token).length := hregistered id _ hpos hid
  rwa [List.length_map] at hindex

theorem scan_of_parse (h : p.parse source = .ok e) : p.scan source = .ok e.nodes := by
  rw [scan_eq_parse, h]
  rfl

theorem growsAt_of_parse (h : p.parse source = .ok e) : Node.GrowsAt e.nodes 0 :=
  (p.scan_isSound source e.nodes (scan_of_parse h)).1

theorem operator_lt_of_parse (h : p.parse source = .ok e) {o : OperatorUse} (ho : .operator o ∈ e.nodes) :
    o.operator < e.operators.length := by
  obtain ⟨_, _, _, hoperators, _⟩ := parse_spec h
  rw [hoperators]
  exact operator_lt_of_scan (scan_of_parse h) ho

/-- Scanning never adds to a node that is no group, comes to an end, and yields the nodes of what the text parses as, or
the error with which it fails to parse. In the order in which they are added the nodes are those of an ordered
tree, each one before its children. Every group but the root has a registered grouping, and every operator refers
to a registered one. -/
theorem scan_isPreorder (p : Parser T) (source : String) :
    p.scan source = ((p.parse source).map Expression.nodes).mapError .failed ∧
      ∀ nodes, p.scan source = .ok nodes → Node.IsPreorder nodes ∧
        (∀ id g, 0 < id → nodes[id]? = some (.group g) → ∃ d ∈ p.groupings, g.grouping = some d) ∧
        ∀ o, .operator o ∈ nodes → o.operator < p.operators.length := by
  refine ⟨p.scan_eq_parse source, ?_⟩
  intro nodes h
  obtain ⟨hgrows, hregistered⟩ := p.scan_isSound source nodes h
  exact ⟨hgrows.isPreorder, fun id g hpos hg => hregistered id _ hpos hg, fun o ho => operator_lt_of_scan h ho⟩

theorem scan_isPreorder_bracketing :
    bracketing.scan "a - b - (~c)" = .ok bracketed.nodes ∧ Node.IsPreorder bracketed.nodes ∧
      (∀ id g, 0 < id → bracketed.nodes[id]? = some (.group g) →
        ∃ d ∈ bracketing.groupings, g.grouping = some d) ∧
      ∀ o, .operator o ∈ bracketed.nodes → o.operator < bracketing.operators.length := by
  have hscan : bracketing.scan "a - b - (~c)" = .ok bracketed.nodes := scan_of_parse parse_bracketing
  exact ⟨hscan, (scan_isPreorder bracketing "a - b - (~c)").2 bracketed.nodes hscan⟩

end Bracketed.Parser
