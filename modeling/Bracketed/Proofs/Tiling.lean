import Bracketed.Node
import Bracketed.Text.Blank
import Mathlib.Algebra.GroupWithZero.Nat

namespace Bracketed

/-- The text stands in the source exactly where the span says. -/
def Span.Spells (s : Span) (source text : List Char) : Prop :=
  ∃ before after, source = before ++ (text ++ after) ∧ s = ⟨before.length, before.length + text.length⟩

/-- The source from `position` on. -/
def RestAt (source : List Char) (position : Nat) (rest : List Char) : Prop :=
  ∃ before, source = before ++ rest ∧ before.length = position

namespace RestAt

variable {source front back : List Char} {position : Nat}

theorem start (source : List Char) : RestAt source 0 source := ⟨[], rfl, rfl⟩

theorem advance (h : RestAt source position (front ++ back)) :
    RestAt source (position + front.length) back := by
  obtain ⟨before, hsource, hposition⟩ := h
  refine ⟨before ++ front, ?_, ?_⟩
  · rw [hsource, List.append_assoc]
  · rw [List.length_append, hposition]

theorem getElem?_eq (h : RestAt source position back) {i : Nat} (hi : position ≤ i) :
    source[i]? = back[i - position]? := by
  obtain ⟨before, rfl, rfl⟩ := h
  exact List.getElem?_append_right hi

theorem spells (h : RestAt source position (front ++ back)) :
    Span.Spells ⟨position, position + front.length⟩ source front := by
  obtain ⟨before, hsource, hposition⟩ := h
  exact ⟨before, back, hsource, by rw [hposition]⟩

/-- Where a group stands with its delimiters, what is inside it begins behind the first of them, and what
follows it behind the second. -/
theorem group {g : Grouping} {inside text rest : List Char} {stop : Nat}
    (h : RestAt source position (g.opening.toList ++ (inside ++ (g.closing.toList ++ text)) ++ rest))
    (hstop : stop = position + g.opening.length + inside.length + g.closing.length) :
    Span.Spells ⟨position, stop⟩ source (g.opening.toList ++ (inside ++ g.closing.toList)) ∧
      RestAt source (position + g.opening.length) (inside ++ (g.closing.toList ++ (text ++ rest))) ∧
      RestAt source stop (text ++ rest) := by
  have hwhole : RestAt source position
      ((g.opening.toList ++ (inside ++ g.closing.toList)) ++ (text ++ rest)) := by
    simpa only [List.append_assoc] using h
  have hlength : position + (g.opening.toList ++ (inside ++ g.closing.toList)).length = stop := by
    simp only [List.length_append, String.length_toList]
    omega
  refine ⟨hlength ▸ hwhole.spells, ?_, hlength ▸ hwhole.advance⟩
  rw [← String.length_toList]
  apply RestAt.advance
  simpa only [List.append_assoc] using h

end RestAt

/-- The characters that a node takes of the group it stands in: a value takes those of its whole run. -/
def Node.extent (tokens : List String) : Node → Nat
  | .group g => g.span.length
  | .value v => v.rawLength
  | .operator o => (tokens[o.operator]?).elim 0 String.length

/-- The nodes stand inside the span `interior` of the source, one behind the other, and share nothing but
blanks with what is not theirs. -/
structure Tiles (tokens : List String) (source : List Char) (interior : Span) (padding : Nat)
    (nodes : List Node) : Prop where
  inside : ∀ n ∈ nodes, interior.start ≤ n.span.start ∧ n.span.start ≤ n.span.stop ∧
    n.span.stop ≤ interior.stop
  ordered : nodes.Pairwise fun m n => m.span.stop ≤ n.span.start
  blank : ∀ i c, interior.start ≤ i → i < interior.stop → source[i]? = some c →
    (∀ n ∈ nodes, ¬ (n.span.start ≤ i ∧ i < n.span.stop)) → Text.isBlank c = true
  length : interior.length = padding + (nodes.map (Node.extent tokens)).sum

namespace Tiles

variable {tokens : List String} {source : List Char} {start stop padding : Nat} {nodes : List Node}

theorem nil (start : Nat) : Tiles tokens source ⟨start, start⟩ 0 [] where
  inside := by simp
  ordered := .nil
  blank := by
    intro i c hlo hhi
    dsimp only at hlo hhi
    omega
  length := by simp [Span.length]

/-- Blanks in front of the first node are padding. -/
theorem blanks {run rest : List Char} (hsource : RestAt source start (run ++ rest))
    (hblank : ∀ c ∈ run, Text.isBlank c = true) (hstop : start + run.length ≤ stop)
    (h : Tiles tokens source ⟨start + run.length, stop⟩ padding nodes) :
    Tiles tokens source ⟨start, stop⟩ (run.length + padding) nodes where
  inside := by
    intro n hn
    have hinside := h.inside n hn
    dsimp only at hinside ⊢
    omega
  ordered := h.ordered
  blank := by
    intro i c hlo hhi hc hfree
    dsimp only at hlo hhi
    by_cases hrun : i < start + run.length
    · apply hblank
      rw [hsource.getElem?_eq hlo, List.getElem?_append_left (by omega)] at hc
      exact List.mem_of_getElem? hc
    · exact h.blank i c (by dsimp only; omega) hhi hc hfree
  length := by
    have hlength := h.length
    simp only [Span.length] at hlength ⊢
    omega

/-- One more node in front takes all the characters before the others but for blanks. -/
theorem cons {n : Node} {taken : Nat} (hextent : n.extent tokens = taken)
    (hn : start ≤ n.span.start ∧ n.span.start ≤ n.span.stop ∧ n.span.stop ≤ start + taken)
    (hstop : start + taken ≤ stop)
    (hblank : ∀ i c, start ≤ i → i < start + taken → source[i]? = some c →
      ¬ (n.span.start ≤ i ∧ i < n.span.stop) → Text.isBlank c = true)
    (h : Tiles tokens source ⟨start + taken, stop⟩ padding nodes) :
    Tiles tokens source ⟨start, stop⟩ padding (n :: nodes) where
  inside := by
    intro m hm
    rcases List.mem_cons.mp hm with rfl | hm
    · dsimp only
      omega
    · have hinside := h.inside m hm
      dsimp only at hinside ⊢
      omega
  ordered := by
    refine List.pairwise_cons.mpr ⟨?_, h.ordered⟩
    intro m hm
    have hinside := h.inside m hm
    dsimp only at hinside
    omega
  blank := by
    intro i c hlo hhi hc hfree
    dsimp only at hlo hhi
    by_cases hhead : i < start + taken
    · exact hblank i c hlo hhead hc (hfree n List.mem_cons_self)
    · refine h.blank i c (by dsimp only; omega) hhi hc ?_
      intro m hm
      exact hfree m (List.mem_cons_of_mem n hm)
  length := by
    have hlength := h.length
    simp only [Span.length, List.map_cons, List.sum_cons] at hlength ⊢
    omega

end Tiles

/-- A group's span without its delimiters. -/
def GroupNode.interior (g : GroupNode) : Span :=
  match g.grouping with
  | none => g.span
  | some d => ⟨g.span.start + d.opening.length, g.span.stop - d.closing.length⟩

end Bracketed
