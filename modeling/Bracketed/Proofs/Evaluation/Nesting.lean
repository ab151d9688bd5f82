import Bracketed.Proofs.Evaluation.RunLaws
import Bracketed.Proofs.Term

namespace Bracketed

variable {T : Type}

/-- Evaluates a tree from its leaves upwards, operands from left to right and before their operator. -/
def Term.run (leaf : String → T) : Term T → Run T (Resolved T)
  | .leaf id v => v.reduce leaf id
  | .group id e content => do
    let x ← content.run leaf
    Run.tell (.group id)
    return ⟨x.value, x.consumed + e.grouping.delimiterLength + e.padding⟩
  | .unary u x => do u.combine (← x.run leaf)
  | .binary b x y => do
    let l ← x.run leaf
    let r ← y.run leaf
    b.combine l r

theorem Term.result_run (leaf : String → T) (t : Term T) :
    (t.run leaf).result = .ok ⟨t.value leaf, t.extent⟩ := by
  induction t with
  | leaf id v => rfl
  | group id e content ih =>
    rw [Term.run, Run.bind_eq_ok_iff]
    exact ⟨_, ih, rfl⟩
  | unary u x ih =>
    rw [Term.run, Run.bind_eq_ok_iff]
    exact ⟨_, ih, rfl⟩
  | binary b x y ihx ihy =>
    rw [Term.run, Run.bind_eq_ok_iff]
    refine ⟨_, ihx, ?_⟩
    rw [Run.bind_eq_ok_iff]
    exact ⟨_, ihy, rfl⟩

/-- A tree's evaluation never fails, so it has nothing to give a position to. -/
theorem Term.orAt_run (leaf : String → T) (t : Term T) (position : Nat) :
    (t.run leaf).orAt position = t.run leaf :=
  Run.orAt_of_ok (t.result_run leaf) position

namespace Item

/-- What remains of a fold once the first operand `x` is reduced. -/
def foldFrom : Associativity → Resolved T → List (Item T) → Run T (Resolved T)
  | .left, x, items => foldLeftFrom x items
  | .right, x, [] => return x
  | .right, x, .binary b :: right => do
    let y ← (foldRight right).orAt b.start
    b.combine x y
  | .right, _, stray :: right => strayOperand stray right

theorem foldFrom_nil (a : Associativity) (x : Resolved T) : foldFrom a x [] = pure x := by
  cases a with
  | left => rw [foldFrom, foldLeftFrom]
  | right => rfl

theorem foldFrom_stray (a : Associativity) (x : Resolved T) {stray : Item T} (rest : List (Item T))
    (h : ∀ b, stray ≠ .binary b) : foldFrom a x (stray :: rest) = strayOperand stray rest := by
  cases stray with
  | binary b => exact absurd rfl (h b)
  | unary u => cases a <;> simp only [foldFrom, foldLeftFrom]
  | operand start reduce => cases a <;> simp only [foldFrom, foldLeftFrom]

theorem takeFirst_cons {first : Item T} (rest : List (Item T)) (h : ∀ b, first ≠ .binary b) :
    takeFirst (first :: rest) = (takeOperand (first :: rest)).orAt first.start := by
  cases first with
  | binary b => exact absurd rfl (h b)
  | unary u => rfl
  | operand start reduce => rfl

/-- Both ways to fold begin with the first operand. -/
theorem fold_cons (a : Associativity) (first : Item T) (rest : List (Item T)) :
    fold a (first :: rest) =
      takeFirst (first :: rest) >>= fun x => foldFrom a x (dropOperand (first :: rest)) := by
  cases a with
  | left => rfl
  | right =>
    rw [fold, foldRight]
    congr 1
    funext x
    split
    · next h => rw [h, foldFrom]
    · next b right h => rw [h, foldFrom]
    · next stray right hb h =>
      rw [h]
      cases stray with
      | binary b => exact absurd rfl (hb b)
      | unary u => rfl
      | operand start reduce => rfl

theorem ne_nil_of_takeOperand {leaf : String → T} {items : List (Item T)} {x : Term T}
    (h : takeOperand items = x.run leaf) : items ≠ [] := by
  intro hnil
  have hok := x.result_run leaf
  rw [← h, hnil] at hok
  cases hok

/-- If items begin with an operand that reduces like the tree `x`, so does their fold, and goes on with
what is behind that operand. -/
theorem fold_of_takeOperand {leaf : String → T} {items : List (Item T)} {x : Term T}
    (h : takeOperand items = x.run leaf) (a : Associativity) :
    fold a items = x.run leaf >>= fun r => foldFrom a r (dropOperand items) := by
  have hok := x.result_run leaf
  rw [← h] at hok
  cases items with
  | nil => cases hok
  | cons first rest =>
    have hfirst : ∀ b, first ≠ .binary b := by
      rintro b rfl
      cases hok
    rw [fold_cons, takeFirst_cons rest hfirst, h, x.orAt_run]

/-- Items that reduce like the operand `x` and then, whatever stands to their left, nest it with `tail`,
do the same one operator further to the left. -/
theorem foldFrom_binary {a : Associativity} {leaf : String → T} {b : BinaryUse T} {right : List (Item T)}
    {x : Term T} {tail : List (BinaryUse T × Term T)} (htake : takeOperand right = x.run leaf)
    (hfold : ∀ z : Term T,
      (z.run leaf >>= fun r => foldFrom a r (dropOperand right)) = (Term.nest a z tail).run leaf)
    (z : Term T) :
    (z.run leaf >>= fun r => foldFrom a r (.binary b :: right)) =
      (Term.nest a z ((b, x) :: tail)).run leaf := by
  cases a with
  | left =>
    -- The operand behind `b` joins the tree to its left before `tail` is nested with that.
    have hstep (r : Resolved T) : foldFrom .left r (.binary b :: right) =
        x.run leaf >>= fun y => b.combine r y >>= fun c => foldFrom .left c (dropOperand right) := by
      rw [foldFrom, foldLeftFrom, htake, x.orAt_run]
      rfl
    have hz := hfold (.binary b z x)
    rw [Term.run] at hz
    simp only [bind_assoc] at hz
    simp only [hstep, Term.nest, hz]
  | right =>
    -- All that is behind `b` is folded on its own, beginning with the operand `x`.
    have hright : foldRight right = (Term.nest .right x tail).run leaf := by
      rw [← hfold x, ← fold_of_takeOperand htake]
      obtain ⟨first, rest, rfl⟩ := List.exists_cons_of_ne_nil (ne_nil_of_takeOperand htake)
      rfl
    simp only [foldFrom, hright, Term.orAt_run, Term.nest]
    rfl

end Item

theorem OperatorUse.item_of_unary {o : OperatorUse} {operators : List (Operator T)} {token : String}
    {apply : T → T} (h : operators[o.operator]? = some ⟨token, .unary apply⟩) (id : Nat) :
    o.item operators id = .unary ⟨id, o.span.start, token, apply⟩ := by
  rw [OperatorUse.item, h]

theorem OperatorUse.item_of_binary {o : OperatorUse} {operators : List (Operator T)} {token : String}
    {apply : T → T → T} (h : operators[o.operator]? = some ⟨token, .binary apply⟩) (id : Nat) :
    o.item operators id = .binary ⟨id, o.span.start, token, apply⟩ := by
  rw [OperatorUse.item, h]

theorem Forest.items_eq_nil_iff {m : Meaning T} {f : Forest} {first : Nat} : f.items m first = [] ↔ f = .nil := by
  cases f <;> simp [items]

/-- Siblings that can be read as operands with binary operators between them are folded like the tree that
nests these. The first operand reduces like its own tree. What is behind it is nested with any tree that
stands in its place, since to the left that tree grows with every operator. -/
theorem Forest.fold_items (m : Meaning T) (f : Forest) :
    (∀ first x tail, f.Reads m.operators m.associativity first x tail →
      Item.takeOperand (f.items m first) = x.run m.leaf ∧
      ∀ z : Term T,
        (z.run m.leaf >>= fun r => Item.foldFrom m.associativity r (Item.dropOperand (f.items m first))) =
          (Term.nest m.associativity z tail).run m.leaf) ∧
    (∀ first tail, f.Continues m.operators m.associativity first tail →
      ∀ z : Term T, (z.run m.leaf >>= fun r => Item.foldFrom m.associativity r (f.items m first)) =
        (Term.nest m.associativity z tail).run m.leaf) := by
  induction f with
  | nil =>
    refine ⟨?_, ?_⟩
    · intro first x tail h
      cases h
    · intro first tail h z
      cases h
      simp only [Forest.items, Item.foldFrom_nil, bind_pure, Term.nest_nil]
  | value v rest ih =>
    refine ⟨?_, ?_⟩
    · intro first x tail h
      cases h with
      | value htail => exact ⟨rfl, ih.2 _ _ htail⟩
    · intro first tail h
      cases h
  | operator o rest ih =>
    refine ⟨?_, ?_⟩
    · intro first x tail h
      cases h with
      | unary hop hrest =>
        obtain ⟨htake, hfold⟩ := ih.1 _ _ _ hrest
        rw [Forest.items, OperatorUse.item_of_unary hop]
        refine ⟨?_, hfold⟩
        rw [Item.takeOperand, htake]
        rfl
    · intro first tail h z
      cases h with
      | binary hop hrest =>
        obtain ⟨htake, hfold⟩ := ih.1 _ _ _ hrest
        rw [Forest.items, OperatorUse.item_of_binary hop]
        exact Item.foldFrom_binary htake hfold z
  | group e content rest ihc ihr =>
    refine ⟨?_, ?_⟩
    · intro first x tail h
      cases h with
      | group hcontent hrest =>
        refine ⟨?_, ihr.2 _ _ hrest⟩
        obtain ⟨htake, hfold⟩ := ihc.1 _ _ _ hcontent
        rw [Forest.items, Item.takeOperand, Enclosure.reduce, Item.fold_of_takeOperand htake, hfold]
        rfl
    · intro first tail h
      cases h

end Bracketed
