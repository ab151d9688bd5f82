import Bracketed.Proofs.Evaluation.Nesting
import Bracketed.Proofs.Scan.Interior
import Mathlib.Data.List.Forall2

namespace Bracketed

/-- The same error further to the right in a text. -/
def EvalError.shift (k : Nat) : EvalError → EvalError
  | missingOperator index => missingOperator (index.map (k + ·))
  | invalidOperand fault index => invalidOperand fault (index.map (k + ·))

theorem EvalError.shift_orAt (e : EvalError) (k position : Nat) :
    (e.orAt position).shift k = (e.shift k).orAt (k + position) := by
  rcases e with ⟨_ | _⟩ | ⟨_, _ | _⟩ <;> rfl

variable {T U : Type}

/-- Two runs end alike: with values that `R` relates, which account for the same number of characters, or with
the same error, which the second run meets `k` characters further to the right. -/
inductive Run.Alike (R : T → U → Prop) (k : Nat) (r : Run T (Resolved T)) (s : Run U (Resolved U)) : Prop where
  | ok {x : Resolved T} {y : Resolved U} (hr : r.result = .ok x) (hs : s.result = .ok y)
      (hvalue : R x.value y.value) (hconsumed : x.consumed = y.consumed)
  | error {e : EvalError} (hr : r.result = .error e) (hs : s.result = .error (e.shift k))

namespace Run

variable {R : T → U → Prop} {k : Nat} {r : Run T (Resolved T)} {s : Run U (Resolved U)}

theorem alike_fault (f : OperandFault) :
    Alike R k (fault f : Run T (Resolved T)) (fault f : Run U (Resolved U)) :=
  .error rfl rfl

theorem Alike.bind {next : Resolved T → Run T (Resolved T)} {next' : Resolved U → Run U (Resolved U)}
    (h : Alike R k r s)
    (hnext : ∀ x y, R x.value y.value → x.consumed = y.consumed → Alike R k (next x) (next' y)) :
    Alike R k (r >>= next) (s >>= next') := by
  cases h with
  | @ok x y hr hs hvalue hconsumed =>
    cases hnext x y hvalue hconsumed with
    | ok hx hy hvalue' hconsumed' =>
      exact .ok (bind_eq_ok_iff.mpr ⟨x, hr, hx⟩) (bind_eq_ok_iff.mpr ⟨y, hs, hy⟩) hvalue' hconsumed'
    | error hx hy =>
      exact .error (bind_eq_error_iff.mpr (.inr ⟨x, hr, hx⟩)) (bind_eq_error_iff.mpr (.inr ⟨y, hs, hy⟩))
  | error hr hs => exact .error (bind_eq_error_iff.mpr (.inl hr)) (bind_eq_error_iff.mpr (.inl hs))

theorem Alike.orAt (h : Alike R k r s) (position : Nat) :
    Alike R k (r.orAt position) (s.orAt (k + position)) := by
  cases h with
  | ok hr hs hvalue hconsumed => exact .ok (orAt_eq_ok_iff.mpr hr) (orAt_eq_ok_iff.mpr hs) hvalue hconsumed
  | @error e hr hs =>
    exact .error (orAt_eq_error_iff.mpr ⟨e, hr, rfl⟩)
      (orAt_eq_error_iff.mpr ⟨e.shift k, hs, (e.shift_orAt k position).symm⟩)

end Run

/-- The same token with functions that keep `R`. -/
inductive Operator.Alike (R : T → U → Prop) : Operator T → Operator U → Prop where
  | unary {token : String} {f : T → T} {f' : U → U} (happly : ∀ a b, R a b → R (f a) (f' b)) :
      Alike R ⟨token, .unary f⟩ ⟨token, .unary f'⟩
  | binary {token : String} {f : T → T → T} {f' : U → U → U}
      (happly : ∀ a b c d, R a b → R c d → R (f a c) (f' b d)) : Alike R ⟨token, .binary f⟩ ⟨token, .binary f'⟩

/-- Two items that do the same to values that `R` relates, the second one `k` characters further to the
right. -/
inductive Item.Alike (R : T → U → Prop) (k : Nat) : Item T → Item U → Prop where
  | operand {start : Nat} {r : Run T (Resolved T)} {s : Run U (Resolved U)} (hreduce : Run.Alike R k r s) :
      Alike R k (.operand start r) (.operand (k + start) s)
  | unary {start id id' : Nat} {token : String} {f : T → T} {f' : U → U}
      (happly : ∀ a b, R a b → R (f a) (f' b)) :
      Alike R k (.unary ⟨id, start, token, f⟩) (.unary ⟨id', k + start, token, f'⟩)
  | binary {start id id' : Nat} {token : String} {f : T → T → T} {f' : U → U → U}
      (happly : ∀ a b c d, R a b → R c d → R (f a c) (f' b d)) :
      Alike R k (.binary ⟨id, start, token, f⟩) (.binary ⟨id', k + start, token, f'⟩)

namespace Item

variable {R : T → U → Prop} {k : Nat}

theorem Alike.start_eq {item : Item T} {item' : Item U} (h : Alike R k item item') :
    item'.start = k + item.start := by
  cases h <;> rfl

theorem alike_takeOperand {items : List (Item T)} {items' : List (Item U)}
    (h : List.Forall₂ (Alike R k) items items') : Run.Alike R k (takeOperand items) (takeOperand items') := by
  induction h with
  | nil => exact Run.alike_fault .missingRight
  | cons hhead _ ih =>
    cases hhead with
    | operand hreduce => exact hreduce
    | binary => exact Run.alike_fault .unresolvedLeft
    | unary happly =>
      refine ih.bind ?_
      intro x y hvalue hconsumed
      exact .ok rfl rfl (happly _ _ hvalue) (congrArg _ hconsumed)

theorem alike_dropOperand {items : List (Item T)} {items' : List (Item U)}
    (h : List.Forall₂ (Alike R k) items items') :
    List.Forall₂ (Alike R k) (dropOperand items) (dropOperand items') := by
  induction h with
  | nil => exact .nil
  | cons hhead htail ih =>
    cases hhead with
    | operand => exact htail
    | binary => exact htail
    | unary => exact ih

theorem alike_takeFirst {items : List (Item T)} {items' : List (Item U)}
    (h : List.Forall₂ (Alike R k) items items') : Run.Alike R k (takeFirst items) (takeFirst items') := by
  have htake := alike_takeOperand h
  cases h with
  | nil => exact Run.alike_fault .missingRight
  | cons hhead =>
    cases hhead with
    | operand | unary => exact htake.orAt _
    | binary => exact (Run.alike_fault .missingLeft).orAt _

theorem alike_strayOperand {item : Item T} {item' : Item U} {rest : List (Item T)} {rest' : List (Item U)}
    (hitem : Alike R k item item') (hrest : List.Forall₂ (Alike R k) rest rest') :
    Run.Alike R k (strayOperand item rest) (strayOperand item' rest') := by
  rw [strayOperand, strayOperand, hitem.start_eq]
  refine ((alike_takeOperand (.cons hitem hrest)).orAt item.start).bind ?_
  intro x y _ _
  exact .error rfl rfl

/-- Folds of items that are alike end alike, whatever operands stand to their left. -/
theorem alike_foldFrom_and_fold (a : Associativity) {items : List (Item T)} {items' : List (Item U)}
    (h : List.Forall₂ (Alike R k) items items') :
    (∀ x y, R x.value y.value → x.consumed = y.consumed →
      Run.Alike R k (foldFrom a x items) (foldFrom a y items')) ∧
    Run.Alike R k (fold a items) (fold a items') := by
  -- Every binary operator hands fewer items on, whether it takes one operand or all that is to its right.
  induction hlength : items.length using Nat.strong_induction_on generalizing items items' with
  | _ n ih =>
    subst hlength
    refine ⟨?_, ?_⟩
    · intro x y hvalue hconsumed
      cases h with
      | nil =>
        rw [foldFrom_nil, foldFrom_nil]
        exact .ok rfl rfl hvalue hconsumed
      | @cons item item' right right' hhead htail =>
        cases hhead with
        | operand hreduce =>
          rw [foldFrom_stray _ _ _ (by simp), foldFrom_stray _ _ _ (by simp)]
          exact alike_strayOperand (.operand hreduce) htail
        | unary happly =>
          rw [foldFrom_stray _ _ _ (by simp), foldFrom_stray _ _ _ (by simp)]
          exact alike_strayOperand (.unary happly) htail
        | @binary start id id' token f f' happly =>
          have hcombine {z : Resolved T} {w : Resolved U} (hright : R z.value w.value)
              (hrightConsumed : z.consumed = w.consumed) :
              Run.Alike R k (BinaryUse.combine ⟨id, start, token, f⟩ x z)
                (BinaryUse.combine ⟨id', k + start, token, f'⟩ y w) := by
            refine .ok rfl rfl (happly _ _ _ _ hvalue hright) ?_
            dsimp only
            rw [hconsumed, hrightConsumed]
          cases a with
          | left =>
            have hshort : (dropOperand right).length < right.length + 1 :=
              Nat.lt_succ_of_le (length_dropOperand_le right)
            rw [foldFrom, foldFrom, foldLeftFrom, foldLeftFrom]
            refine ((alike_takeOperand htail).orAt start).bind ?_
            intro z w hright hrightConsumed
            refine (hcombine hright hrightConsumed).bind ?_
            exact (ih _ hshort (alike_dropOperand htail) rfl).1
          | right =>
            have hfold : Run.Alike R k (foldRight right) (foldRight right') := by
              have hshort := (ih _ (Nat.lt_succ_self right.length) htail rfl).2
              cases htail with
              | nil =>
                rw [foldRight, foldRight]
                exact Run.alike_fault .missingRight
              | cons => exact hshort
            exact (hfold.orAt start).bind fun z w => hcombine
    · cases h with
      | nil => exact Run.alike_fault .emptyGroup
      | cons hhead htail =>
        rw [fold_cons, fold_cons]
        refine (alike_takeFirst (.cons hhead htail)).bind ?_
        exact (ih _ (length_dropOperand_lt (List.cons_ne_nil _ _)) (alike_dropOperand (.cons hhead htail)) rfl).1

end Item

/-- The same meaning for values that `R` relates. -/
structure Meaning.Alike (R : T → U → Prop) (m : Meaning T) (m' : Meaning U) : Prop where
  operators : ∀ index : Nat, Option.Rel (Operator.Alike R) m.operators[index]? m'.operators[index]?
  leaf : ∀ text, R (m.leaf text) (m'.leaf text)
  associativity : m'.associativity = m.associativity

section

variable {R : T → U → Prop} {m : Meaning T} {m' : Meaning U}

theorem OperatorUse.alike_item (hm : m.Alike R m') (o : OperatorUse) (k id id' : Nat) :
    Item.Alike R k (o.item m.operators id) (({ o with span := o.span.shift k } : OperatorUse).item m'.operators id') := by
  rw [item, item]
  dsimp only
  have hoperator := hm.operators o.operator
  generalize m.operators[o.operator]? = found at hoperator
  generalize m'.operators[o.operator]? = found' at hoperator
  cases hoperator with
  | none => exact .operand (Run.alike_fault .unresolvedOperand)
  | some halike =>
    cases halike with
    | unary happly => exact .unary happly
    | binary happly => exact .binary happly

theorem Enclosure.alike_reduce {k : Nat} (e : Enclosure) (span : Span) (a : Associativity) (id id' : Nat)
    {items : List (Item T)} {items' : List (Item U)} (h : List.Forall₂ (Item.Alike R k) items items') :
    Run.Alike R k (e.reduce a id items) (({ e with span } : Enclosure).reduce a id' items') := by
  refine (Item.alike_foldFrom_and_fold a h).2.bind ?_
  intro x y hvalue hconsumed
  refine .ok rfl rfl hvalue ?_
  dsimp only
  rw [hconsumed]

/-- Neither the numbers of nodes nor their place in the text matter to what they are as items. -/
theorem Forest.alike_items (hm : m.Alike R m') (f : Forest) (k first first' : Nat) :
    List.Forall₂ (Item.Alike R k) (f.items m first) ((f.shift k).items m' first') := by
  induction f generalizing first first' with
  | nil => exact .nil
  | value v rest ih => exact .cons (.operand (.ok rfl rfl (hm.leaf v.text) rfl)) (ih _ _)
  | operator o rest ih => exact .cons (o.alike_item hm k first first') (ih _ _)
  | group e content rest ihc ihr =>
    rw [shift, items, items, hm.associativity]
    exact .cons (.operand (e.alike_reduce _ _ _ _ (ihc _ _))) (ihr _ _)

end

end Bracketed
