import Bracketed.Proofs.Evaluation.Nesting
import Bracketed.Proofs.Fault
import Bracketed.Proofs.Scan.Parse

namespace Bracketed

variable {T : Type}

namespace Run

variable {α β : Type}

/-- The error that a run ends with, if it does. -/
def error? (r : Run T α) : Option EvalError :=
  match r.result with
  | .error e => some e
  | .ok _ => none

@[simp] theorem error?_fail (e : EvalError) : (fail e : Run T α).error? = some e := rfl

@[simp] theorem error?_orAt (r : Run T α) (position : Nat) :
    (r.orAt position).error? = r.error?.map (EvalError.orAt position) := by
  rw [error?, error?, result_orAt]
  cases r.result <;> rfl

theorem error?_eq_some_iff {r : Run T α} {e : EvalError} : r.error? = some e ↔ r.result = .error e := by
  rw [error?]
  cases r.result <;> simp

/-- If what comes after a run fails in the same way whatever the run's value is, then the run's own error
comes first, and then that one. -/
theorem error?_bind {r : Run T α} {next : α → Run T β} {after : Option EvalError}
    (h : ∀ a, (next a).error? = after) : (r >>= next).error? = r.error?.or after := by
  cases hr : r.result with
  | error e =>
    rw [error?, error?, result_bind, hr]
    rfl
  | ok a =>
    rw [← h a, error?, error?, error?, result_bind, hr]
    rfl

end Run

@[simp] theorem UnaryUse.error?_combine (u : UnaryUse T) (x : Resolved T) : (u.combine x).error? = none := rfl

@[simp] theorem BinaryUse.error?_combine (b : BinaryUse T) (x y : Resolved T) :
    (b.combine x y).error? = none := rfl

namespace Forest

variable {operators : List (Operator T)} {a : Associativity}

/-- Only the fault of an empty group has no position. -/
theorem map_orAt_fault {expected : Expected} (h : expected ≠ .first) (f : Forest) (position : Nat) :
    (f.fault operators a expected).map (EvalError.orAt position) = f.fault operators a expected := by
  induction f generalizing expected with
  | nil => cases expected <;> first | rfl | exact absurd rfl h
  | value v rest ih =>
    rw [fault, Expected.faultAtOperand, Option.map_or, ih (by simp)]
    split <;> rfl
  | operator o rest ih =>
    rw [fault]
    split
    · rw [Option.map_or, ih (by simp)]
      cases expected with
      | right before => cases a <;> rfl
      | first => rfl
      | applied position stray => rfl
      | operator => rfl
    · exact ih (by simp)
  | group e content rest ihc ihr =>
    rw [fault, Expected.faultAtOperand, Option.map_or, Option.map_or, ihr (by simp), Option.map_map]
    congr 1
    · congr 1
      funext err
      exact EvalError.orAt_orAt err _ _
    · split <;> rfl

/-- To the left a binary operator answers for the faults of the operand behind it. -/
theorem fault_right_left (f : Forest) (before : Nat) :
    f.fault operators .left (.right before) = f.fault operators .left (.applied before false) := by
  cases f <;> rfl

/-- To the right what stands behind a binary operator is read like a group of its own. -/
theorem fault_right_right {f : Forest} (h : f ≠ .nil) (before : Nat) :
    f.fault operators .right (.right before) = f.fault operators .right .first := by
  cases f with
  | nil => exact absurd rfl h
  | value v rest => rfl
  | operator o rest => rfl
  | group e content rest => rfl

end Forest

namespace Item

/-- Whether and how a fold fails does not depend on what has been reduced before. -/
theorem error?_foldFrom_eq (a : Associativity) (x y : Resolved T) (items : List (Item T)) :
    (foldFrom a x items).error? = (foldFrom a y items).error? := by
  cases a with
  | left =>
    change (foldLeftFrom x items).error? = (foldLeftFrom y items).error?
    fun_induction foldLeftFrom x items generalizing y with
    | case1 x => rw [foldLeftFrom]; rfl
    | case2 x b right ih =>
      rw [foldLeftFrom]
      have hbehind (l r : Resolved T) : (b.combine l r >>= fun z => foldLeftFrom z (dropOperand right)).error? =
          (foldLeftFrom y (dropOperand right)).error? :=
        Run.error?_bind fun z => ih z y
      rw [Run.error?_bind (hbehind x), Run.error?_bind (hbehind y)]
    | case3 x stray right h => rw [foldLeftFrom]; exact h
  | right =>
    cases items with
    | nil => rfl
    | cons item rest =>
      cases item with
      | binary b =>
        rw [foldFrom, foldFrom, Run.error?_bind (b.error?_combine x), Run.error?_bind (b.error?_combine y)]
      | unary u => rfl
      | operand start reduce => rfl

/-- How a fold fails that has got to an operand at `position`: by the operand's own fault, and then by that
of what stands behind it, unless the operand should not have been there. -/
def operandFault (a : Associativity) (x : Resolved T) (position : Nat) (stray : Bool) (items : List (Item T)) :
    Option EvalError :=
  ((takeOperand items).error?.map (EvalError.orAt position)).or
    (if stray then some (.missingOperator (some position)) else (foldFrom a x (dropOperand items)).error?)

/-- An item other than a binary operator is reduced before it is found to be stray. -/
theorem error?_foldFrom_stray (a : Associativity) (x : Resolved T) {stray : Item T} (rest : List (Item T))
    (h : ∀ b, stray ≠ .binary b) :
    (foldFrom a x (stray :: rest)).error? = operandFault a x stray.start true (stray :: rest) := by
  rw [foldFrom_stray a x rest h, strayOperand, Run.error?_bind fun _ => Run.error?_fail _, Run.error?_orAt,
    operandFault, if_pos rfl]

theorem error?_foldFrom_binary_left (x : Resolved T) (b : BinaryUse T) (right : List (Item T)) :
    (foldFrom .left x (.binary b :: right)).error? = operandFault .left x b.start false right := by
  have hbehind (y : Resolved T) : (b.combine x y >>= fun z => foldLeftFrom z (dropOperand right)).error? =
      (foldFrom .left x (dropOperand right)).error? :=
    Run.error?_bind fun z => error?_foldFrom_eq .left z x _
  rw [foldFrom, foldLeftFrom, Run.error?_bind hbehind, Run.error?_orAt, operandFault, if_neg Bool.false_ne_true]

theorem error?_foldFrom_binary_right (x : Resolved T) (b : BinaryUse T) (right : List (Item T)) :
    (foldFrom .right x (.binary b :: right)).error? =
      (foldRight right).error?.map (EvalError.orAt b.start) := by
  rw [foldFrom, Run.error?_bind (b.error?_combine x), Run.error?_orAt, Option.or_none]

/-- A fold whose first item is no binary operator begins with an operand. -/
theorem error?_fold_cons (a : Associativity) (x : Resolved T) {first : Item T} (rest : List (Item T))
    (h : ∀ b, first ≠ .binary b) :
    (fold a (first :: rest)).error? = operandFault a x first.start false (first :: rest) := by
  rw [fold_cons, Run.error?_bind fun r => error?_foldFrom_eq a r x _, takeFirst_cons rest h, Run.error?_orAt,
    operandFault, if_neg Bool.false_ne_true]

end Item

theorem Item.operandFault_unary (a : Associativity) (x : Resolved T) (position : Nat) (stray : Bool)
    (u : UnaryUse T) (rest : List (Item T)) :
    operandFault a x position stray (.unary u :: rest) = operandFault a x position stray rest := by
  rw [operandFault, takeOperand, Run.error?_bind u.error?_combine, Option.or_none]
  rfl

theorem Enclosure.error?_reduce (e : Enclosure) (a : Associativity) (id : Nat) (content : List (Item T)) :
    (e.reduce a id content).error? = (Item.fold a content).error? := by
  refine (Run.error?_bind ?_).trans Option.or_none
  intro x
  rfl

/-- A registered operator is either unary or binary. -/
theorem OperatorUse.item_cases {o : OperatorUse} {operators : List (Operator T)}
    (h : o.operator < operators.length) (id : Nat) :
    (¬ o.IsOfKind operators .binary ∧ ∃ u, o.item operators id = .unary u ∧ u.start = o.span.start) ∨
      (o.IsOfKind operators .binary ∧ ∃ b, o.item operators id = .binary b ∧ b.start = o.span.start) := by
  rw [OperatorUse.IsOfKind]
  rcases hop : operators[o.operator]? with _ | ⟨token, apply | apply⟩
  · rw [List.getElem?_eq_none_iff] at hop
    omega
  · exact Or.inl ⟨by simp [Operator.kind], _, OperatorUse.item_of_unary hop id, rfl⟩
  · exact Or.inr ⟨rfl, _, OperatorUse.item_of_binary hop id, rfl⟩

namespace Forest

variable {v : Vocabulary} {m : Meaning T}

/-- A group's content is folded with the fault it has from its first operand on. -/
theorem error?_fold_items {f : Forest} (hv : v.operators.length = m.operators.length) (hf : f.IsRegistered v)
    (hoperand : ∀ first x position stray, Item.operandFault m.associativity x position stray (f.items m first) =
      f.fault m.operators m.associativity (.applied position stray)) (first : Nat) :
    (Item.fold m.associativity (f.items m first)).error? = f.fault m.operators m.associativity .first := by
  have x : Resolved T := ⟨m.leaf "", 0⟩
  cases f with
  | nil => rfl
  | value w rest =>
    rw [items, Item.error?_fold_cons _ x _ (by simp)]
    exact hoperand first x w.span.start false
  | group e content rest =>
    rw [items, Item.error?_fold_cons _ x _ (by simp)]
    exact hoperand first x e.span.start false
  | operator o rest =>
    have h := hoperand first x o.span.start false
    rw [items] at h ⊢
    rw [fault] at h ⊢
    rcases OperatorUse.item_cases (hv ▸ hf.1) first with ⟨hkind, u, hitem, hstart⟩ | ⟨hkind, b, hitem, hstart⟩
    · rw [hitem, if_neg hkind] at h ⊢
      rw [Item.error?_fold_cons _ x _ (by simp), Item.start, hstart]
      exact h
    · rw [hitem, Item.fold_cons, Run.error?_bind fun r => Item.error?_foldFrom_eq _ r x _, if_pos hkind,
        ← hstart]
      rfl

/-- A binary operator hands what stands behind it to the associativity's way of reading it. -/
theorem error?_foldFrom_binary {f : Forest} (hv : v.operators.length = m.operators.length)
    (hf : f.IsRegistered v)
    (hoperand : ∀ first x position stray, Item.operandFault m.associativity x position stray (f.items m first) =
      f.fault m.operators m.associativity (.applied position stray)) (first : Nat) (x : Resolved T)
    (b : BinaryUse T) :
    (Item.foldFrom m.associativity x (.binary b :: f.items m first)).error? =
      f.fault m.operators m.associativity (.right b.start) := by
  have hfold := error?_fold_items hv hf hoperand first
  have hleft := hoperand first x b.start false
  generalize m.associativity = a at hfold hleft ⊢
  cases a with
  | left =>
    rw [Item.error?_foldFrom_binary_left, hleft, fault_right_left]
  | right =>
    rw [Item.error?_foldFrom_binary_right]
    by_cases hnil : f = .nil
    · rw [hnil, items, Item.foldRight]
      rfl
    · obtain ⟨item, rest, hitems⟩ := List.exists_cons_of_ne_nil (mt items_eq_nil_iff.mp hnil)
      rw [hitems] at hfold ⊢
      rw [← map_orAt_fault (by simp) f b.start, fault_right_right hnil, ← hfold]
      rfl

/-- Behind an operand, and at the beginning of one, a forest is folded with the fault it has there. -/
theorem error?_items (hv : v.operators.length = m.operators.length) (f : Forest) (hf : f.IsRegistered v) :
    (∀ first x, (Item.foldFrom m.associativity x (f.items m first)).error? =
      f.fault m.operators m.associativity .operator) ∧
    ∀ first x position stray, Item.operandFault m.associativity x position stray (f.items m first) =
      f.fault m.operators m.associativity (.applied position stray) := by
  induction f with
  | nil =>
    refine ⟨?_, ?_⟩
    · intro first x
      rw [items, Item.foldFrom_nil]
      rfl
    · intro first x position stray
      rfl
  | value w rest ih =>
    have hoperand : ∀ first x position stray,
        Item.operandFault m.associativity x position stray ((value w rest).items m first) =
          (value w rest).fault m.operators m.associativity (.applied position stray) := by
      intro first x position stray
      rw [fault, Expected.faultAtOperand, ← (ih hf).1 (first + 1) x]
      cases stray <;> rfl
    refine ⟨?_, hoperand⟩
    intro first x
    rw [items, Item.error?_foldFrom_stray _ _ _ (by simp)]
    exact hoperand first x w.span.start true
  | operator o rest ih =>
    obtain ⟨hindex, hrest⟩ := hf
    rw [hv] at hindex
    obtain ⟨_, hoperand⟩ := ih hrest
    refine ⟨?_, ?_⟩
    · intro first x
      rw [items, fault]
      rcases OperatorUse.item_cases hindex first with ⟨hkind, u, hitem, hstart⟩ | ⟨hkind, b, hitem, hstart⟩
      · rw [hitem, if_neg hkind, Item.error?_foldFrom_stray _ _ _ (by simp), Item.operandFault_unary, hoperand,
          Item.start, hstart]
        rfl
      · rw [hitem, if_pos hkind, error?_foldFrom_binary hv hrest hoperand, hstart]
        rfl
    · intro first x position stray
      rw [items, fault]
      rcases OperatorUse.item_cases hindex first with ⟨hkind, u, hitem, hstart⟩ | ⟨hkind, b, hitem, hstart⟩
      · rw [hitem, if_neg hkind, Item.operandFault_unary]
        exact hoperand (first + 1) x position stray
      · rw [hitem, if_pos hkind]
        rfl
  | group e content rest ihc ihr =>
    have hoperand : ∀ first x position stray,
        Item.operandFault m.associativity x position stray ((group e content rest).items m first) =
          (group e content rest).fault m.operators m.associativity (.applied position stray) := by
      intro first x position stray
      rw [fault, Expected.faultAtOperand, ← (ihr hf.2.2).1 (first + 1 + content.size) x,
        ← error?_fold_items hv hf.2.1 (ihc hf.2.1).2 (first + 1), items, Item.operandFault, Item.takeOperand,
        Enclosure.error?_reduce]
      cases stray <;> rfl
    refine ⟨?_, hoperand⟩
    intro first x
    rw [items, Item.error?_foldFrom_stray _ _ _ (by simp)]
    exact hoperand first x e.span.start true

end Forest

/-- An expression fails as its root does, and gives the error a position. -/
theorem Expression.error?_run_eq (e : Expression T) (leaf : String → T) :
    (e.run leaf).error? = (Item.fold e.associativity
      (e.content.items ⟨e.operators, leaf, e.associativity⟩ (rootId + 1))).error?.map (EvalError.orAt 0) := by
  rw [← Run.error?_orAt, run]
  refine (Run.error?_bind ?_).trans Option.or_none
  intro x
  rfl

/-- An expression fails with the first fault that its root's children have. -/
theorem Expression.error?_run {e : Expression T} {v : Vocabulary} (hv : v.operators.length = e.operators.length)
    (hf : e.content.IsRegistered v) (leaf : String → T) :
    (e.run leaf).error? = (e.content.fault e.operators e.associativity .first).map (EvalError.orAt 0) := by
  have hoperand := (Forest.error?_items (m := ⟨e.operators, leaf, e.associativity⟩) hv e.content hf).2
  rw [error?_run_eq, Forest.error?_fold_items hv hf hoperand (rootId + 1)]

theorem Parser.error?_run {p : Parser T} {source : String} {e : Expression T} (h : p.parse source = .ok e)
    (leaf : String → T) :
    (e.run leaf).error? = (e.content.fault p.operators p.associativity .first).map (EvalError.orAt 0) := by
  obtain ⟨_, hscans, _, hoperators, hassociativity⟩ := parse_spec h
  have hlength : p.vocabulary.operators.length = e.operators.length := by
    rw [hoperators]
    exact List.length_map _
  rw [← hoperators, ← hassociativity]
  exact Expression.error?_run hlength hscans.isRegistered leaf

/-- A text that parses fails to evaluate exactly if reading the children of its groups from left to right
meets a fault, and the error is the first one met. An empty root has no other position than the beginning
of the text. -/
theorem Parser.evaluateWith_eq_error_iff {p : Parser T} {source : String} {e : Expression T}
    (h : p.parse source = .ok e) (leaf : String → T) (err : EvalError) :
    e.evaluateWith leaf = .error err ↔
      (e.content.fault p.operators p.associativity .first).map (EvalError.orAt 0) = some err := by
  obtain ⟨_, hscans, _, hoperators, hassociativity⟩ := parse_spec h
  have hlength : p.vocabulary.operators.length = e.operators.length := by
    rw [hoperators]
    exact List.length_map _
  rw [← hoperators, ← hassociativity, ← Expression.error?_run hlength hscans.isRegistered leaf,
    Run.error?_eq_some_iff]
  rfl

theorem Parser.evaluateWith_eq_error_iff_bracketing :
    let content := Forest.value ⟨"a", 2, ⟨0, 1⟩⟩ <| .operator ⟨1, ⟨2, 3⟩⟩ <| .operator ⟨0, ⟨4, 5⟩⟩ <|
      .operator ⟨1, ⟨5, 6⟩⟩ <| .value ⟨"b", 2, ⟨7, 8⟩⟩ .nil
    let e := { bracketed with source := "a - ~- b", content }
    bracketing.parse "a - ~- b" = .ok e ∧
      (content.fault bracketing.operators .left .first).map (EvalError.orAt 0) =
        some (.invalidOperand .unresolvedLeft (some 2)) ∧
      e.evaluateWith id = .error (.invalidOperand .unresolvedLeft (some 2)) := by
  intro content e
  have hparse : bracketing.parse "a - ~- b" = .ok e := by with_unfolding_all rfl
  have hfault : (content.fault bracketing.operators .left .first).map (EvalError.orAt 0) =
      some (.invalidOperand .unresolvedLeft (some 2)) := by decide
  exact ⟨hparse, hfault, (evaluateWith_eq_error_iff hparse id _).mpr hfault⟩

end Bracketed
