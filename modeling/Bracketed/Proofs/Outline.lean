import Bracketed.Proofs.Arena
import Bracketed.Proofs.Text.Trim
import Bracketed.Token.Lexer

namespace Bracketed

/-- The sibling nodes of a tree without the places at which they stand in a text. -/
inductive Outline where
  | nil
  | value (text : String) (rest : Outline)
  | operator (index : Nat) (rest : Outline)
  | group (g : Grouping) (content rest : Outline)
  deriving DecidableEq

/-- What remains of a forest without its spans and blanks. -/
def Forest.outline : Forest → Outline
  | .nil => .nil
  | .value v rest => .value v.text rest.outline
  | .operator o rest => .operator o.operator rest.outline
  | .group e content rest => .group e.grouping content.outline rest.outline

namespace Outline

/-- The texts of the siblings. Inside a group they are written with one space between each two of them and
to the delimiters. -/
def items (v : Vocabulary) : Outline → List String
  | nil => []
  | value text rest => text :: rest.items v
  | operator index rest => v.operators.getD index "" :: rest.items v
  | group g content rest =>
    (g.opening ++ " " ++ " ".intercalate (content.items v) ++ " " ++ g.closing) :: rest.items v

/-- The siblings written with one space between each two of them. -/
def render (v : Vocabulary) (o : Outline) : String :=
  " ".intercalate (o.items v)

def beginsWithValue : Outline → Prop
  | value _ _ => True
  | _ => False

/-- The nodes with these numbers, and at all depths the nodes that they list as children, are the siblings of
the outline. -/
inductive IsReadFrom (all : List Node) : List Nat → Outline → Prop where
  | nil : IsReadFrom all [] nil
  | value {id : Nat} {others : List Nat} {v : Value} {rest : Outline} (hnode : all[id]? = some (.value v))
      (hrest : IsReadFrom all others rest) : IsReadFrom all (id :: others) (value v.text rest)
  | operator {id : Nat} {others : List Nat} {o : OperatorUse} {rest : Outline}
      (hnode : all[id]? = some (.operator o)) (hrest : IsReadFrom all others rest) :
      IsReadFrom all (id :: others) (operator o.operator rest)
  | group {id : Nat} {others : List Nat} {n : GroupNode} {g : Grouping} {content rest : Outline}
      (hnode : all[id]? = some (.group n)) (hgrouping : n.grouping = some g)
      (hcontent : IsReadFrom all n.children content) (hrest : IsReadFrom all others rest) :
      IsReadFrom all (id :: others) (group g content rest)

end Outline

/-- What remains of a forest can be read from its nodes. -/
theorem Forest.StandsIn.isReadFrom {f : Forest} {all : List Node} {parent first : Nat}
    (h : f.StandsIn all parent first) : f.outline.IsReadFrom all (f.ids first) := by
  induction f generalizing parent first with
  | nil => exact .nil
  | value v rest ih =>
    obtain ⟨hnode, hrest⟩ := h.value
    exact .value hnode (ih hrest)
  | operator o rest ih =>
    obtain ⟨hnode, hrest⟩ := h.operator
    exact .operator hnode (ih hrest)
  | group e content rest ihc ihr =>
    obtain ⟨hnode, hcontent, hrest⟩ := h.group
    exact .group hnode rfl (ihc hcontent) (ihr hrest)

/-- The texts of all registered tokens. -/
def Vocabulary.texts (v : Vocabulary) : List String :=
  v.operators ++ (v.groupings.map Grouping.opening ++ v.groupings.map Grouping.closing)

namespace Vocabulary

variable {v : Vocabulary}

theorem mem_texts_of_operator {t : String} (h : t ∈ v.operators) : t ∈ v.texts :=
  List.mem_append_left _ h

theorem opening_mem_texts {g : Grouping} (h : g ∈ v.groupings) : g.opening ∈ v.texts :=
  List.mem_append_right _ (List.mem_append_left _ (List.mem_map_of_mem h))

theorem closing_mem_texts {g : Grouping} (h : g ∈ v.groupings) : g.closing ∈ v.texts :=
  List.mem_append_right _ (List.mem_append_right _ (List.mem_map_of_mem h))

theorem forall_mem_texts {P : String → Prop} : (∀ t ∈ v.texts, P t) ↔
    (∀ t ∈ v.operators, P t) ∧ (∀ g ∈ v.groupings, P g.opening) ∧ ∀ g ∈ v.groupings, P g.closing := by
  rw [texts, List.forall_mem_append, List.forall_mem_append, List.forall_mem_map, List.forall_mem_map]

/-- Where no delimiter and no operator is found, no registered token stands. -/
theorem not_isPrefix_of_eq_none {cs : List Char} (hopening : v.opening? cs = none) (hclosing : v.closing? cs = none)
    (hoperator : ∀ t ∈ v.operators, ¬ t.toList <+: cs) : ∀ t ∈ v.texts, ¬ t.toList <+: cs := by
  refine forall_mem_texts.mpr ⟨hoperator, ?_, ?_⟩
  · intro g hg
    rw [← List.isPrefixOf_iff_prefix]
    exact List.find?_eq_none.mp hopening g hg
  · intro g hg
    rw [← List.isPrefixOf_iff_prefix]
    exact List.find?_eq_none.mp hclosing g hg

end Vocabulary

/-- Neither text begins with the other one. -/
def Text.Incomparable (s t : String) : Prop :=
  ¬ s.toList <+: t.toList ∧ ¬ t.toList <+: s.toList

/-- No token has a blank among its characters. -/
def Vocabulary.IsBlankFree (v : Vocabulary) : Prop :=
  ∀ t ∈ v.texts, ∀ c ∈ t.toList, Text.isBlank c = false

/-- All tokens have characters, but no blanks among them, and no token begins with another one. -/
structure Vocabulary.PrefixFree (v : Vocabulary) : Prop where
  ne_empty : ∀ t ∈ v.texts, t ≠ ""
  not_blank : ∀ t ∈ v.texts, ∀ c ∈ t.toList, Text.isBlank c = false
  incomparable : v.texts.Pairwise Text.Incomparable

/-- The outline can be written in the vocabulary: its operators and groupings are registered, and its values
are trimmed texts in which no character begins a token, with something else between any two of them. -/
def Outline.Fits (v : Vocabulary) : Outline → Prop
  | .nil => True
  | .value text rest => Text.Trimmed text.toList ∧
      (∀ c ∈ text.toList, ∀ t ∈ v.texts, t.toList.head? ≠ some c) ∧ ¬ rest.beginsWithValue ∧ rest.Fits v
  | .operator index rest => index < v.operators.length ∧ rest.Fits v
  | .group g content rest => g ∈ v.groupings ∧ content.Fits v ∧ rest.Fits v

end Bracketed
