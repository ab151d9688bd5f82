import Bracketed.Evaluation.Reducer
import Bracketed.Proofs.Evaluation.Reducing

namespace Bracketed

variable {T : Type}

namespace Slot

@[simp] theorem pendings_nil : (pendings [] : List (Slot T)) = [] := rfl

@[simp] theorem pendings_cons (id : Nat) (ids : List Nat) :
    (pendings (id :: ids) : List (Slot T)) = pending id :: pendings ids := rfl

@[simp] theorem length_pendings (ids : List Nat) : (pendings ids : List (Slot T)).length = ids.length :=
  List.length_map _

variable (before behind : List (Slot T)) (slot slot' : Slot T) (x : Placed T)

theorem read_append : read (before ++ slot :: behind) before.length = pure slot :=
  Reducing.lookUp_eq_pure (by simp)

theorem write_append :
    write (before ++ slot :: behind) before.length slot' = pure (before ++ slot' :: behind) := by
  rw [write, if_pos (by simp), List.set_append_right _ _ (Nat.le_refl _), Nat.sub_self, List.set_cons_zero]

theorem remove_append : remove (before ++ slot :: behind) before.length = pure (slot, before ++ behind) := by
  rw [remove, read_append, pure_bind, List.eraseIdx_append_of_length_le (Nat.le_refl _), Nat.sub_self,
    List.eraseIdx_cons_zero]

theorem takeResolved_append :
    takeResolved (before ++ resolved x :: behind) before.length = pure (x, before ++ behind) := by
  rw [takeResolved, remove_append, pure_bind]

theorem splitOff_append : splitOff (before ++ behind) before.length = pure (before, behind) := by
  rw [splitOff, if_pos (by simp), List.take_left, List.drop_left]

theorem insert_zero (slots : List (Slot T)) : insert slots 0 slot = pure (slot :: slots) :=
  if_pos (Nat.zero_le _)

end Slot

/-- Reduces a group to what its content reduces to. -/
def GroupNode.reduce (g : GroupNode) (a : Associativity) (id : Nat) (content : List (Item T)) :
    Run T (Resolved T) := do
  let x ← Item.fold a content
  Run.tell (.group id)
  return ⟨x.value, x.consumed + g.delimiterLength + g.padding⟩

namespace Reducer

/-- The nodes with the numbers `ids` stand for `items`, and `order` has the numbers of these nodes and of all
below them, each node before its children. -/
inductive Unfolds (r : Reducer T) : List Nat → List (Item T) → List Nat → Prop where
  | nil : Unfolds r [] [] []
  | value {id : Nat} {v : Value} {ids order : List Nat} {items : List (Item T)}
      (hnode : r.nodes[id]? = some (.value v)) (hrest : Unfolds r ids items order) :
      Unfolds r (id :: ids) (.operand v.span.start (v.reduce r.leaf id) :: items) (id :: order)
  | group {id : Nat} {g : GroupNode} {ids below order : List Nat} {content items : List (Item T)}
      (hnode : r.nodes[id]? = some (.group g)) (hcontent : Unfolds r g.children content below)
      (hrest : Unfolds r ids items order) :
      Unfolds r (id :: ids) (.operand g.span.start (g.reduce r.associativity id content) :: items)
        (id :: (below ++ order))
  | unary {id : Nat} {o : OperatorUse} {token : String} {apply : T → T} {ids order : List Nat}
      {items : List (Item T)} (hnode : r.nodes[id]? = some (.operator o))
      (hoperator : r.operators[o.operator]? = some ⟨token, .unary apply⟩) (hrest : Unfolds r ids items order) :
      Unfolds r (id :: ids) (.unary ⟨id, o.span.start, token, apply⟩ :: items) (id :: order)
  | binary {id : Nat} {o : OperatorUse} {token : String} {apply : T → T → T} {ids order : List Nat}
      {items : List (Item T)} (hnode : r.nodes[id]? = some (.operator o))
      (hoperator : r.operators[o.operator]? = some ⟨token, .binary apply⟩) (hrest : Unfolds r ids items order) :
      Unfolds r (id :: ids) (.binary ⟨id, o.span.start, token, apply⟩ :: items) (id :: order)

variable {r : Reducer T}

theorem node_eq_pure {id : Nat} {n : Node} (h : r.nodes[id]? = some n) : r.node id = pure n :=
  Reducing.lookUp_eq_pure h

theorem operator_eq_pure {o : OperatorUse} {op : Operator T} (h : r.operators[o.operator]? = some op) :
    r.operator o = pure op :=
  Reducing.lookUp_eq_pure h

theorem Unfolds.startOf {id : Nat} {ids order : List Nat} {item : Item T} {items : List (Item T)}
    (h : r.Unfolds (id :: ids) (item :: items) order) : r.startOf (.pending id) = pure item.start := by
  cases h with
  | value hnode | group hnode | unary hnode | binary hnode =>
    rw [Reducer.startOf, node_eq_pure hnode]
    rfl

/-- A group without children fails like their fold. -/
theorem reduceGroup_eq (r : Reducer T) (depth : Nat) (g : GroupNode) :
    r.reduceGroup (depth + 2) g = do
      let inner ← r.fold (depth + 1) (Slot.pendings g.children)
      return ⟨⟨inner.value, inner.consumed + g.delimiterLength + g.padding⟩, g.span.start⟩ := by
  rw [reduceGroup]
  split
  · next h =>
    rw [List.isEmpty_iff.mp h, fold]
    rfl
  · rfl

section

variable {id : Nat} (depth : Nat) (before behind : List (Slot T))

theorem consume_value {v : Value} (h : r.nodes[id]? = some (.value v)) :
    r.consume (depth + 1) (before ++ .pending id :: behind) before.length = do
      Reducing.note id
      let x ← Reducing.ofRun (v.reduce r.leaf id)
      return (before.length, before ++ .resolved ⟨x, v.span.start⟩ :: behind) := by
  rw [consume, Slot.read_append, pure_bind]
  simp only [node_eq_pure h, pure_bind, Slot.write_append]

theorem consume_group {g : GroupNode} (h : r.nodes[id]? = some (.group g)) :
    r.consume (depth + 1) (before ++ .pending id :: behind) before.length = do
      Reducing.note id
      let x ← r.reduceGroup depth g
      Reducing.ofRun (Run.tell (.group id))
      return (before.length, before ++ .resolved x :: behind) := by
  rw [consume, Slot.read_append, pure_bind]
  simp only [node_eq_pure h, pure_bind, Slot.write_append]

theorem consume_unary {o : OperatorUse} {token : String} {apply : T → T}
    (hnode : r.nodes[id]? = some (.operator o))
    (hoperator : r.operators[o.operator]? = some ⟨token, .unary apply⟩) :
    r.consume (depth + 1) (before ++ .pending id :: behind) before.length = Reducing.note id >>= fun _ =>
      r.consumeUnary depth (before ++ .pending id :: behind) before.length ⟨id, o.span.start, token, apply⟩ := by
  rw [consume, Slot.read_append, pure_bind]
  simp only [node_eq_pure hnode, operator_eq_pure hoperator, pure_bind]

theorem consume_binary {o : OperatorUse} {token : String} {apply : T → T → T}
    (hnode : r.nodes[id]? = some (.operator o))
    (hoperator : r.operators[o.operator]? = some ⟨token, .binary apply⟩) :
    r.consume (depth + 1) (before ++ .pending id :: behind) before.length = Reducing.note id >>= fun _ =>
      r.consumeBinary depth (before ++ .pending id :: behind) before.length ⟨id, o.span.start, token, apply⟩ := by
  rw [consume, Slot.read_append, pure_bind]
  simp only [node_eq_pure hnode, operator_eq_pure hoperator, pure_bind]

/-- To the slots behind it, a unary operator that has yet to be applied is one more slot before them. -/
theorem consumeUnary_append (u : UnaryUse T) (id next : Nat) (ids : List Nat) :
    r.consumeUnary (depth + 1) (before ++ .pending id :: Slot.pendings (next :: ids)) before.length u = do
      let (place, slots) ← r.consume depth ((before ++ [Slot.pending id]) ++ Slot.pendings (next :: ids))
        (before ++ [Slot.pending id]).length
      let (operand, slots) ← Slot.takeResolved slots place
      let x ← Reducing.ofRun (u.combine operand.toResolved)
      let slots ← Slot.write slots before.length (.resolved ⟨x, u.start⟩)
      return (before.length, slots) := by
  rw [consumeUnary, if_neg (by simp), List.append_assoc, List.length_append]
  rfl

theorem consumeUnary_last (u : UnaryUse T) (id : Nat) :
    r.consumeUnary (depth + 1) (before ++ [.pending id]) before.length u = Reducing.fault .missingRight := by
  rw [consumeUnary, if_pos (by simp)]

/-- A binary operator does not take another operator for its left operand. -/
theorem consumeBinary_pending (b : BinaryUse T) (previous id : Nat) :
    r.consumeBinary (depth + 1) (before ++ .pending previous :: .pending id :: behind) (before.length + 1) b =
      Reducing.fault .unresolvedLeft := by
  rw [consumeBinary, if_neg (Nat.succ_ne_zero _), Nat.add_sub_cancel, Slot.read_append, pure_bind]

end

theorem foldOn_cons (depth : Nat) (slot : Slot T) (id : Nat) (ids : List Nat) :
    r.foldOn (depth + 1) (slot :: Slot.pendings (id :: ids)) 0 =
      r.foldFrom depth ([slot] ++ Slot.pendings (id :: ids)) [slot].length := by
  rw [foldOn, if_neg (by simp), if_neg (by simp)]
  rfl

section

variable {id : Nat} {ids order : List Nat} {item : Item T} {items : List (Item T)}

/-- A fold consumes the slot at its cursor, and gives errors the position of that. -/
theorem Unfolds.foldFrom_eq (h : r.Unfolds (id :: ids) (item :: items) order) (depth : Nat)
    (before : List (Slot T)) :
    r.foldFrom (depth + 1) (before ++ Slot.pendings (id :: ids)) before.length =
      (r.consume depth (before ++ Slot.pendings (id :: ids)) before.length).orAt item.start >>= fun (place, slots) =>
        r.foldOn depth slots place := by
  rw [foldFrom, Slot.pendings_cons, Slot.read_append, pure_bind, h.startOf, pure_bind]

theorem Unfolds.fold_eq (h : r.Unfolds (id :: ids) (item :: items) order) (depth : Nat) :
    r.fold (depth + 2) (Slot.pendings (id :: ids)) = (do
      let (place, slots) ← (r.consume depth (Slot.pendings (id :: ids)) 0).orAt item.start
      let slots ← r.foldOn depth slots place
      let (x, _) ← Slot.takeResolved slots 0
      return x) := by
  have hfrom := h.foldFrom_eq depth []
  rw [List.nil_append, List.length_nil] at hfrom
  rw [fold, if_neg (by simp), hfrom, bind_assoc]

end

end Reducer

end Bracketed
