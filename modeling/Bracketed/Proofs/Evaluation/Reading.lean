import Bracketed.Proofs.Evaluation.Nesting

namespace Bracketed

variable {T : Type}

namespace Item

/-- A fold succeeds only if the first operand does and what remains is folded with it. -/
theorem takeOperand_of_fold {a : Associativity} {items : List (Item T)} {s : Resolved T}
    (h : (fold a items).result = .ok s) :
    ∃ r, (takeOperand items).result = .ok r ∧ (foldFrom a r (dropOperand items)).result = .ok s := by
  cases items with
  | nil => cases h
  | cons first rest =>
    rw [fold_cons, Run.bind_eq_ok_iff] at h
    obtain ⟨r, htake, hfrom⟩ := h
    refine ⟨r, ?_, hfrom⟩
    cases first with
    | binary b => cases htake
    | unary u => exact Run.orAt_eq_ok_iff.mp htake
    | operand start reduce => exact Run.orAt_eq_ok_iff.mp htake

/-- Whatever binary operators associate to, the items behind one of them are an operand and what may
stand behind an operand. -/
theorem takeOperand_of_foldFrom_binary {a : Associativity} {b : BinaryUse T} {right : List (Item T)}
    {r s : Resolved T} (h : (foldFrom a r (.binary b :: right)).result = .ok s) :
    (∃ x, (takeOperand right).result = .ok x) ∧ ∃ x y, (foldFrom a x (dropOperand right)).result = .ok y := by
  cases a with
  | left =>
    rw [foldFrom, foldLeftFrom, Run.bind_eq_ok_iff] at h
    obtain ⟨x, htake, h⟩ := h
    rw [Run.bind_eq_ok_iff] at h
    obtain ⟨y, _, hfrom⟩ := h
    exact ⟨⟨x, Run.orAt_eq_ok_iff.mp htake⟩, y, s, hfrom⟩
  | right =>
    rw [foldFrom, Run.bind_eq_ok_iff] at h
    obtain ⟨y, hfold, _⟩ := h
    have hright := Run.orAt_eq_ok_iff.mp hfold
    cases right with
    | nil =>
      rw [foldRight] at hright
      cases hright
    | cons first rest =>
      have hright : (fold .right (first :: rest)).result = .ok y := hright
      obtain ⟨x, htake, hfrom⟩ := takeOperand_of_fold hright
      exact ⟨⟨x, htake⟩, x, y, hfrom⟩

theorem strayOperand_ne_ok (stray : Item T) (rest : List (Item T)) (s : Resolved T) :
    (strayOperand stray rest).result ≠ .ok s := by
  intro h
  rw [strayOperand, Run.bind_eq_ok_iff] at h
  obtain ⟨x, _, hfail⟩ := h
  cases hfail

/-- Only a binary operator may stand directly behind an operand. -/
theorem isBinary_of_foldFrom_cons {a : Associativity} {item : Item T} {rest : List (Item T)} {r s : Resolved T}
    (h : (foldFrom a r (item :: rest)).result = .ok s) : ∃ b, item = .binary b := by
  refine Classical.byContradiction fun hbinary => ?_
  rw [foldFrom_stray a r rest fun b hb => hbinary ⟨b, hb⟩] at h
  exact strayOperand_ne_ok _ _ _ h

end Item

/-- A fold of siblings succeeds only if they can be read as operands with binary operators between
them. -/
theorem Forest.exists_reads_of_items (m : Meaning T) (f : Forest) :
    (∀ first, (∃ r, (Item.takeOperand (f.items m first)).result = .ok r) →
      (∃ r s, (Item.foldFrom m.associativity r (Item.dropOperand (f.items m first))).result = .ok s) →
      ∃ x tail, f.Reads m.operators m.associativity first x tail) ∧
    (∀ first, (∃ r s, (Item.foldFrom m.associativity r (f.items m first)).result = .ok s) →
      ∃ tail, f.Continues m.operators m.associativity first tail) := by
  induction f with
  | nil =>
    refine ⟨?_, ?_⟩
    · rintro first ⟨r, htake⟩ _
      cases htake
    · intro first _
      exact ⟨[], .nil⟩
  | value v rest ih =>
    refine ⟨?_, ?_⟩
    · intro first _ hfrom
      obtain ⟨tail, htail⟩ := ih.2 _ hfrom
      exact ⟨_, tail, .value htail⟩
    · rintro first ⟨r, s, hfrom⟩
      obtain ⟨b, hb⟩ := Item.isBinary_of_foldFrom_cons hfrom
      cases hb
  | operator o rest ih =>
    refine ⟨?_, ?_⟩
    · rintro first ⟨r, htake⟩ hfrom
      rcases hop : m.operators[o.operator]? with _ | ⟨token, apply | apply⟩
      · rw [items, OperatorUse.item, hop] at htake
        cases htake
      · rw [items, OperatorUse.item_of_unary hop] at htake hfrom
        rw [Item.takeOperand, Run.bind_eq_ok_iff] at htake
        obtain ⟨s, htake, _⟩ := htake
        obtain ⟨x, tail, hrest⟩ := ih.1 _ ⟨s, htake⟩ hfrom
        exact ⟨_, tail, .unary hop hrest⟩
      · rw [items, OperatorUse.item_of_binary hop] at htake
        cases htake
    · rintro first ⟨r, s, hfrom⟩
      rcases hop : m.operators[o.operator]? with _ | ⟨token, apply | apply⟩
      · rw [items, OperatorUse.item, hop] at hfrom
        obtain ⟨b, hb⟩ := Item.isBinary_of_foldFrom_cons hfrom
        cases hb
      · rw [items, OperatorUse.item_of_unary hop] at hfrom
        obtain ⟨b, hb⟩ := Item.isBinary_of_foldFrom_cons hfrom
        cases hb
      · rw [items, OperatorUse.item_of_binary hop] at hfrom
        obtain ⟨htake, hbehind⟩ := Item.takeOperand_of_foldFrom_binary hfrom
        obtain ⟨x, tail, hrest⟩ := ih.1 _ htake hbehind
        exact ⟨_, .binary hop hrest⟩
  | group e content rest ihc ihr =>
    refine ⟨?_, ?_⟩
    · rintro first ⟨r, htake⟩ hfrom
      obtain ⟨tail, htail⟩ := ihr.2 _ hfrom
      rw [items, Item.takeOperand, Enclosure.reduce, Run.bind_eq_ok_iff] at htake
      obtain ⟨s, hfold, _⟩ := htake
      obtain ⟨t, hinner, hbehind⟩ := Item.takeOperand_of_fold hfold
      obtain ⟨x, inner, hcontent⟩ := ihc.1 _ ⟨t, hinner⟩ ⟨t, s, hbehind⟩
      exact ⟨_, tail, .group hcontent htail⟩
    · rintro first ⟨r, s, hfrom⟩
      obtain ⟨b, hb⟩ := Item.isBinary_of_foldFrom_cons hfrom
      cases hb

end Bracketed
