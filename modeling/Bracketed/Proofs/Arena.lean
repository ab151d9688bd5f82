import Bracketed.Expression

namespace Bracketed

private theorem getElem?_of_cons_prefix_drop {α : Type} {all rest : List α} {x : α} {first : Nat}
    (h : x :: rest <+: all.drop first) : all[first]? = some x ∧ rest <+: all.drop (first + 1) := by
  obtain ⟨after, hafter⟩ := h
  constructor
  · have hhead : (all.drop first)[0]? = some x := by
      rw [← hafter]
      rfl
    rwa [List.getElem?_drop, Nat.add_zero] at hhead
  · refine ⟨after, ?_⟩
    rw [← List.drop_drop, ← hafter]
    rfl

private theorem prefix_drop_of_append {α : Type} {all front back : List α} {first : Nat}
    (h : front ++ back <+: all.drop first) :
    front <+: all.drop first ∧ back <+: all.drop (first + front.length) := by
  obtain ⟨after, hafter⟩ := h
  constructor
  · exact ⟨back ++ after, by rw [← hafter, List.append_assoc]⟩
  · refine ⟨after, ?_⟩
    rw [← List.drop_drop, ← hafter, List.append_assoc, List.drop_left]

/-- The node of a group with the number `first`. -/
def Enclosure.node (e : Enclosure) (parent first : Nat) (content : Forest) : GroupNode where
  parent := some parent
  grouping := some e.grouping
  children := content.ids (first + 1)
  span := e.span
  padding := e.padding

namespace Forest

theorem nodes_group (e : Enclosure) (content rest : Forest) (parent first : Nat) :
    (group e content rest).nodes parent first = .group (e.node parent first content) ::
      (content.nodes first (first + 1) ++ rest.nodes parent (first + 1 + content.size)) := rfl

/-- The nodes of the siblings at the top, without those inside them. -/
def tops (parent first : Nat) : Forest → List Node
  | nil => []
  | value v rest => .value v :: rest.tops parent (first + 1)
  | operator o rest => .operator o :: rest.tops parent (first + 1)
  | group e content rest =>
    .group (e.node parent first content) :: rest.tops parent (first + 1 + content.size)

/-- A list of nodes holds those of a forest in the order of their numbers, at the place that the numbers
say. -/
def StandsIn (f : Forest) (all : List Node) (parent first : Nat) : Prop :=
  f.nodes parent first <+: all.drop first

variable {all : List Node} {parent first : Nat}

theorem StandsIn.value {v : Value} {rest : Forest} (h : (value v rest).StandsIn all parent first) :
    all[first]? = some (.value v) ∧ rest.StandsIn all parent (first + 1) :=
  getElem?_of_cons_prefix_drop h

theorem StandsIn.operator {o : OperatorUse} {rest : Forest}
    (h : (operator o rest).StandsIn all parent first) :
    all[first]? = some (.operator o) ∧ rest.StandsIn all parent (first + 1) :=
  getElem?_of_cons_prefix_drop h

theorem StandsIn.group {e : Enclosure} {content rest : Forest}
    (h : (group e content rest).StandsIn all parent first) :
    all[first]? = some (.group (e.node parent first content)) ∧
      content.StandsIn all first (first + 1) ∧ rest.StandsIn all parent (first + 1 + content.size) := by
  obtain ⟨hhead, hbelow⟩ := getElem?_of_cons_prefix_drop h
  obtain ⟨hcontent, hrest⟩ := prefix_drop_of_append hbelow
  rw [length_nodes] at hrest
  exact ⟨hhead, hcontent, hrest⟩

/-- The numbers of siblings lead to their nodes. -/
theorem StandsIn.map_ids {f : Forest} (h : f.StandsIn all parent first) :
    (f.ids first).map (all[·]?) = (f.tops parent first).map some := by
  induction f generalizing first with
  | nil => rfl
  | value v rest ih =>
    obtain ⟨hhead, hrest⟩ := h.value
    simp only [ids, tops, List.map_cons, hhead, ih hrest]
  | operator o rest ih =>
    obtain ⟨hhead, hrest⟩ := h.operator
    simp only [ids, tops, List.map_cons, hhead, ih hrest]
  | group e content rest ihc ihr =>
    obtain ⟨hhead, _, hrest⟩ := h.group
    simp only [ids, tops, List.map_cons, hhead, ihr hrest]

end Forest

/-- All nodes of an expression but its root are those of its content, numbered from one. -/
theorem Expression.content_standsIn {T : Type} (e : Expression T) :
    e.content.StandsIn e.nodes Expression.rootId 1 :=
  List.prefix_refl _

end Bracketed
