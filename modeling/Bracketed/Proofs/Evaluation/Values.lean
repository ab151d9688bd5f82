import Bracketed.Proofs.Evaluation.Calls
import Bracketed.Proofs.Scan.Values

namespace Bracketed

variable {T : Type}

/-- The leaf function is called with the text of the value whose call it is. -/
theorem Expression.exists_value_of_mem_calls {e : Expression T} {leaf : String → T} {id : Nat} {text : String}
    (h : .leaf id text ∈ e.calls leaf) : ∃ w, e.nodes[id]? = some (.value w) ∧ w.text = text := by
  obtain ⟨node, hnode, hevent⟩ := (e.callsInOrder leaf).own _ h
  cases node with
  | value w =>
    cases hevent
    exact ⟨w, hnode, rfl⟩
  | group g => cases hevent
  | operator o =>
    rw [Node.event?] at hevent
    split at hevent <;> cases hevent

namespace Parser

/-- The values of a text that parses are what is left of it between tokens. Each fills all that stands between the
siblings next to it, or up to the end of its group, but for blanks. It is not empty, no token occurs in it, and none
begins where it or one of those blanks stands. The leaf function is called with such texts only. -/
theorem parse_valuesFill {p : Parser T} {source : String} {e : Expression T} (h : p.parse source = .ok e) :
    (∀ g, .group g ∈ e.nodes → ∃ siblings, g.children.map (e.nodes[·]?) = siblings.map some ∧
      Node.ValuesFill p.vocabulary source.toList g.interior siblings) ∧
    (∀ w, .value w ∈ e.nodes → ∃ run, w.Fills p.vocabulary source.toList run) ∧
    ∀ leaf id text, .leaf id text ∈ e.calls leaf →
      ∃ w run, e.nodes[id]? = some (.value w) ∧ w.text = text ∧ w.Fills p.vocabulary source.toList run := by
  refine ⟨fun g hg => exists_siblings h hg, fun w hw => exists_run h hw, ?_⟩
  intro leaf id text hcall
  obtain ⟨w, hw, htext⟩ := Expression.exists_value_of_mem_calls hcall
  obtain ⟨run, hrun⟩ := exists_run h (List.mem_of_getElem? hw)
  exact ⟨w, run, hw, htext, hrun⟩

/-- One of the two characters of a token may stand in a value. -/
theorem parse_valuesFill_bracketing :
    let p := bracketing.binary "::" fun x y => x ++ "::" ++ y
    let source := " x:y :: ( a b )"
    let content := Forest.value ⟨"x:y", 5, ⟨1, 4⟩⟩ <| .operator ⟨2, ⟨5, 7⟩⟩ <|
      .group ⟨⟨"(", ")"⟩, ⟨8, 15⟩, 0⟩ (.value ⟨"a b", 5, ⟨10, 13⟩⟩ .nil) .nil
    let e : Expression String := ⟨source, 1, content, p.operators, id, .left⟩
    p.parse source = .ok e ∧
      (∀ g, .group g ∈ e.nodes → ∃ siblings, g.children.map (e.nodes[·]?) = siblings.map some ∧
        Node.ValuesFill p.vocabulary source.toList g.interior siblings) ∧
      (∀ w, .value w ∈ e.nodes → ∃ run, w.Fills p.vocabulary source.toList run) ∧
      ∀ leaf id text, .leaf id text ∈ e.calls leaf →
        ∃ w run, e.nodes[id]? = some (.value w) ∧ w.text = text ∧ w.Fills p.vocabulary source.toList run := by
  intro p source content e
  have hparse : p.parse source = .ok e := by
    simp only [source]
    with_unfolding_all rfl
  exact ⟨hparse, parse_valuesFill hparse⟩

end Parser

end Bracketed
