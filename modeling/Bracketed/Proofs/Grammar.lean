import Bracketed.Proofs.Arena
import Bracketed.Proofs.Term

namespace Bracketed

variable {T : Type} (operators : List (Operator T))

/-- The occurrence is one of a registered operator of this kind. -/
def OperatorUse.IsOfKind (o : OperatorUse) (kind : OperatorKind) : Prop :=
  (operators[o.operator]?).map Operator.kind = some kind

/-- Any number of unary operators, and then one value or one group. -/
inductive IsOperand : List Node → Prop where
  | value (v : Value) : IsOperand [.value v]
  | group (g : GroupNode) : IsOperand [.group g]
  | unary {o : OperatorUse} {nodes : List Node} (hunary : o.IsOfKind operators .unary)
      (hrest : IsOperand nodes) : IsOperand (.operator o :: nodes)

/-- An operand, and then any number of times a binary operator and another operand. -/
inductive IsPhrase : List Node → Prop where
  | operand {nodes : List Node} (hoperand : IsOperand operators nodes) : IsPhrase nodes
  | binary {left right : List Node} {o : OperatorUse} (hleft : IsOperand operators left)
      (hbinary : o.IsOfKind operators .binary) (hright : IsPhrase right) :
      IsPhrase (left ++ .operator o :: right)

/-- What may stand behind a value or a group: nothing, or a binary operator and more operands. -/
inductive IsContinuation : List Node → Prop where
  | nil : IsContinuation []
  | binary {o : OperatorUse} {right : List Node} (hbinary : o.IsOfKind operators .binary)
      (hright : IsPhrase operators right) : IsContinuation (.operator o :: right)

variable {operators}

theorem not_isPhrase_nil : ¬ IsPhrase operators [] := by
  intro h
  generalize hnodes : ([] : List Node) = nodes at h
  cases h with
  | operand hoperand => cases hnodes; cases hoperand
  | binary => exact absurd hnodes.symm (List.append_ne_nil_of_right_ne_nil _ (List.cons_ne_nil _ _))

theorem isPhrase_cons_operator_iff {o : OperatorUse} {nodes : List Node} :
    IsPhrase operators (.operator o :: nodes) ↔ o.IsOfKind operators .unary ∧ IsPhrase operators nodes := by
  constructor
  · intro h
    generalize hall : Node.operator o :: nodes = all at h
    cases h with
    | operand hoperand =>
      cases hoperand with
      | value v => cases hall
      | group g => cases hall
      | unary hunary hrest =>
        cases hall
        exact ⟨hunary, .operand hrest⟩
    | binary hleft hbinary hright =>
      cases hleft with
      | value v => cases hall
      | group g => cases hall
      | unary hunary hrest =>
        cases hall
        exact ⟨hunary, .binary hrest hbinary hright⟩
  · rintro ⟨hunary, h⟩
    cases h with
    | operand hoperand => exact .operand (.unary hunary hoperand)
    | binary hleft hbinary hright =>
      exact IsPhrase.binary (.unary hunary hleft) hbinary hright

/-- A value or a group is an operand already, so only a continuation may stand behind it. -/
theorem isPhrase_cons_iff_isContinuation {n : Node} {nodes : List Node} (hn : n.operator? = none) :
    IsPhrase operators (n :: nodes) ↔ IsContinuation operators nodes := by
  constructor
  · intro h
    generalize hall : n :: nodes = all at h
    cases h with
    | operand hoperand =>
      cases hoperand with
      | value v => cases hall; exact .nil
      | group g => cases hall; exact .nil
      | unary hunary hrest => cases hall; cases hn
    | binary hleft hbinary hright =>
      cases hleft with
      | value v => cases hall; exact .binary hbinary hright
      | group g => cases hall; exact .binary hbinary hright
      | unary hunary hrest => cases hall; cases hn
  · intro h
    have hoperand : IsOperand operators [n] := by
      cases n with
      | group g => exact .group g
      | value v => exact .value v
      | operator o => cases hn
    cases h with
    | nil => exact .operand hoperand
    | binary hbinary hright => exact .binary hoperand hbinary hright

theorem isContinuation_cons_operator_iff {o : OperatorUse} {nodes : List Node} :
    IsContinuation operators (.operator o :: nodes) ↔
      o.IsOfKind operators .binary ∧ IsPhrase operators nodes := by
  constructor
  · intro h
    cases h with
    | binary hbinary hright => exact ⟨hbinary, hright⟩
  · rintro ⟨hbinary, hright⟩
    exact .binary hbinary hright

/-- The children that a group lists in `all` form a phrase. -/
def GroupNode.IsGrammatical (g : GroupNode) (operators : List (Operator T)) (all : List Node) : Prop :=
  ∃ children, g.children.map (all[·]?) = children.map some ∧ IsPhrase operators children

theorem GroupNode.isGrammatical_iff {g : GroupNode} {all children : List Node}
    (h : g.children.map (all[·]?) = children.map some) :
    g.IsGrammatical operators all ↔ IsPhrase operators children := by
  constructor
  · rintro ⟨others, hothers, hphrase⟩
    rw [h] at hothers
    rwa [(List.map_inj_right fun _ _ => Option.some.inj).mp hothers]
  · intro hphrase
    exact ⟨children, h, hphrase⟩

namespace Forest

variable (a : Associativity)

theorem exists_reads_value_iff {first : Nat} {v : Value} {rest : Forest} :
    (∃ x tail, (value v rest).Reads operators a first x tail) ↔
      ∃ tail, rest.Continues operators a (first + 1) tail := by
  constructor
  · rintro ⟨x, tail, h⟩
    cases h with
    | value hrest => exact ⟨tail, hrest⟩
  · rintro ⟨tail, hrest⟩
    exact ⟨_, tail, .value hrest⟩

theorem exists_reads_group_iff {first : Nat} {e : Enclosure} {content rest : Forest} :
    (∃ x tail, (group e content rest).Reads operators a first x tail) ↔
      (∃ x inner, content.Reads operators a (first + 1) x inner) ∧
        ∃ tail, rest.Continues operators a (first + 1 + content.size) tail := by
  constructor
  · rintro ⟨x, tail, h⟩
    cases h with
    | group hcontent hrest => exact ⟨⟨_, _, hcontent⟩, tail, hrest⟩
  · rintro ⟨⟨x, inner, hcontent⟩, tail, hrest⟩
    exact ⟨_, tail, .group hcontent hrest⟩

theorem exists_reads_operator_iff {first : Nat} {o : OperatorUse} {rest : Forest} :
    (∃ x tail, (operator o rest).Reads operators a first x tail) ↔
      o.IsOfKind operators .unary ∧ ∃ x tail, rest.Reads operators a (first + 1) x tail := by
  constructor
  · rintro ⟨x, tail, h⟩
    cases h with
    | unary hop hrest => exact ⟨by rw [OperatorUse.IsOfKind, hop]; rfl, _, tail, hrest⟩
  · rintro ⟨hkind, x, tail, hrest⟩
    obtain ⟨⟨token, combine⟩, hop, hunary⟩ := Option.map_eq_some_iff.mp hkind
    cases combine with
    | unary apply => exact ⟨_, tail, .unary hop hrest⟩
    | binary apply => cases hunary

theorem exists_continues_operator_iff {first : Nat} {o : OperatorUse} {rest : Forest} :
    (∃ tail, (operator o rest).Continues operators a first tail) ↔
      o.IsOfKind operators .binary ∧ ∃ x tail, rest.Reads operators a (first + 1) x tail := by
  constructor
  · rintro ⟨tail, h⟩
    cases h with
    | binary hop hrest => exact ⟨by rw [OperatorUse.IsOfKind, hop]; rfl, _, _, hrest⟩
  · rintro ⟨hkind, x, tail, hrest⟩
    obtain ⟨⟨token, combine⟩, hop, hbinary⟩ := Option.map_eq_some_iff.mp hkind
    cases combine with
    | unary apply => cases hbinary
    | binary apply => exact ⟨_, .binary hop hrest⟩

/-- Siblings can be read as operands with binary operators between them exactly if they form a phrase and
so do the children of every group inside them. -/
theorem exists_reads_iff (f : Forest) {all : List Node} :
    (∀ {parent first : Nat}, f.StandsIn all parent first →
      ((∃ x tail, f.Reads operators a first x tail) ↔ IsPhrase operators (f.tops parent first) ∧
        ∀ g, .group g ∈ f.nodes parent first → g.IsGrammatical operators all)) ∧
    (∀ {parent first : Nat}, f.StandsIn all parent first →
      ((∃ tail, f.Continues operators a first tail) ↔ IsContinuation operators (f.tops parent first) ∧
        ∀ g, .group g ∈ f.nodes parent first → g.IsGrammatical operators all)) := by
  induction f with
  | nil =>
    refine ⟨?_, ?_⟩
    · intro parent first h
      constructor
      · rintro ⟨x, tail, hreads⟩
        cases hreads
      · rintro ⟨hphrase, _⟩
        exact absurd hphrase not_isPhrase_nil
    · intro parent first h
      constructor
      · intro _
        exact ⟨.nil, by intro g hg; cases hg⟩
      · intro _
        exact ⟨[], .nil⟩
  | value v rest ih =>
    refine ⟨?_, ?_⟩
    · intro parent first h
      rw [exists_reads_value_iff, ih.2 h.value.2, tops, isPhrase_cons_iff_isContinuation rfl]
      simp [nodes]
    · intro parent first h
      constructor
      · rintro ⟨tail, hcontinues⟩
        cases hcontinues
      · rintro ⟨hcontinuation, _⟩
        cases hcontinuation
  | operator o rest ih =>
    refine ⟨?_, ?_⟩
    · intro parent first h
      rw [exists_reads_operator_iff, ih.1 h.operator.2, tops, isPhrase_cons_operator_iff, and_assoc]
      simp [nodes]
    · intro parent first h
      rw [exists_continues_operator_iff, ih.1 h.operator.2, tops, isContinuation_cons_operator_iff, and_assoc]
      simp [nodes]
  | group e content rest ihc ihr =>
    refine ⟨?_, ?_⟩
    · intro parent first h
      obtain ⟨_, hcontent, hrest⟩ := h.group
      rw [exists_reads_group_iff, ihc.1 hcontent, ihr.2 hrest, tops, isPhrase_cons_iff_isContinuation rfl]
      have hnode : (e.node parent first content).IsGrammatical operators all ↔
          IsPhrase operators (content.tops first (first + 1)) := GroupNode.isGrammatical_iff hcontent.map_ids
      rw [← hnode]
      -- The nodes are the group itself, those inside it, and those behind it.
      constructor
      · rintro ⟨⟨hhead, hinside⟩, hcontinuation, hbehind⟩
        refine ⟨hcontinuation, ?_⟩
        intro g hg
        rw [nodes_group, List.mem_cons, List.mem_append] at hg
        rcases hg with hg | hg | hg
        · cases hg
          exact hhead
        · exact hinside g hg
        · exact hbehind g hg
      · rintro ⟨hcontinuation, hall⟩
        refine ⟨⟨hall _ ?_, ?_⟩, hcontinuation, ?_⟩
        · exact List.mem_cons_self
        · intro g hg
          exact hall g (List.mem_cons_of_mem _ (List.mem_append_left _ hg))
        · intro g hg
          exact hall g (List.mem_cons_of_mem _ (List.mem_append_right _ hg))
    · intro parent first h
      constructor
      · rintro ⟨tail, hcontinues⟩
        cases hcontinues
      · rintro ⟨hcontinuation, _⟩
        cases hcontinuation

end Forest

/-- The siblings at the top of an expression can be read as operands with binary operators between them
exactly if the children of every group form a phrase, the root's included. -/
theorem Expression.exists_reads_iff (e : Expression T) (a : Associativity) :
    (∃ x tail, e.content.Reads e.operators a 1 x tail) ↔
      ∀ g, .group g ∈ e.nodes → g.IsGrammatical e.operators e.nodes := by
  have hroot : e.root.IsGrammatical e.operators e.nodes ↔ IsPhrase e.operators (e.content.tops rootId 1) :=
    GroupNode.isGrammatical_iff e.content_standsIn.map_ids
  rw [(Forest.exists_reads_iff a e.content).1 e.content_standsIn, ← hroot]
  constructor
  · rintro ⟨htop, hbelow⟩ g hg
    rcases List.mem_cons.mp hg with hg | hg
    · cases hg
      exact htop
    · exact hbelow g hg
  · intro hall
    refine ⟨hall e.root List.mem_cons_self, ?_⟩
    intro g hg
    exact hall g (List.mem_cons_of_mem _ hg)

end Bracketed
