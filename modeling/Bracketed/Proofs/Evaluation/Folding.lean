import Bracketed.Proofs.Evaluation.Nesting
import Bracketed.Proofs.Evaluation.Slots

namespace Bracketed

variable {T : Type}

namespace Item

/-- The right operand of a binary operator that stands before `items`. -/
def rightOperand : Associativity → List (Item T) → Run T (Resolved T)
  | .left, items => takeOperand items
  | .right, items => foldRight items

/-- The items that are left behind that operand. -/
def afterRight : Associativity → List (Item T) → List (Item T)
  | .left, items => dropOperand items
  | .right, _ => []

theorem rightOperand_nil (a : Associativity) :
    rightOperand a ([] : List (Item T)) = Run.fault .missingRight := by
  cases a with
  | left => rfl
  | right => rw [rightOperand, foldRight]

/-- Applying an operator never fails, so it does not matter whether errors are given a position before that or
behind it. -/
theorem foldFrom_binary_eq (a : Associativity) (x : Resolved T) (b : BinaryUse T) (items : List (Item T)) :
    foldFrom a x (.binary b :: items) =
      (rightOperand a items >>= b.combine x).orAt b.start >>= fun z => foldFrom a z (afterRight a items) := by
  have hcombine (y : Resolved T) : (b.combine x y).orAt b.start = b.combine x y := Run.orAt_of_ok rfl _
  rw [Run.orAt_bind, bind_assoc]
  simp only [hcombine]
  cases a with
  | left =>
    rw [foldFrom, foldLeftFrom]
    rfl
  | right =>
    rw [foldFrom]
    simp only [afterRight, foldFrom, bind_pure]
    rfl

end Item

namespace Reducer

variable {r : Reducer T} {ids order : List Nat} {items : List (Item T)}

/-- Folding the slots of the nodes with the numbers `ids` comes to what the fold of their items comes to, and
consumes all nodes of `order`. Five calls deep for each of these is enough, and two more. -/
def FoldsTo (r : Reducer T) (ids : List Nat) (items : List (Item T)) (order : List Nat) : Prop :=
  ∀ depth, 5 * order.length + 2 ≤ depth → (r.fold depth (Slot.pendings ids)).Follows
    (Item.fold r.associativity items) order fun x y left => y.toResolved = x ∧ left = []

/-- Folding on from a first slot that has been reduced comes to what the items behind it are folded to from
there. -/
def FoldsOnTo (r : Reducer T) (ids : List Nat) (items : List (Item T)) (order : List Nat) : Prop :=
  ∀ depth, 5 * order.length + 2 ≤ depth → ∀ x : Placed T,
    (r.foldOn depth (.resolved x :: Slot.pendings ids) 0).Follows
      (Item.foldFrom r.associativity x.toResolved items) order
      fun y slots left => slots = [.resolved ⟨y, x.start⟩] ∧ left = []

/-- Whatever unfolds to fewer than `n` nodes is folded like its items. -/
def FoldsBelow (r : Reducer T) (n : Nat) : Prop :=
  ∀ {ids items order}, r.Unfolds ids items order → order.length < n → r.FoldsTo ids items order

/-- Behind the slots `before`, the operand that `items` begin with has been reduced to `x`. The slots behind it
still wait for their turn, and only their nodes are left of `order`. -/
def HasConsumed (r : Reducer T) (before : List (Slot T)) (items : List (Item T)) (order : List Nat)
    (x : Resolved T) (result : Nat × List (Slot T)) (left : List Nat) : Prop :=
  ∃ start ids, items.head?.map Item.start = some start ∧
    result = (before.length, before ++ .resolved ⟨x, start⟩ :: Slot.pendings ids) ∧
    r.Unfolds ids (Item.dropOperand items) left ∧ left.length < order.length

/-- A group in a slot is reduced like its content, and nothing behind it is touched. -/
theorem FoldsTo.follows_group {g : GroupNode} {content : List (Item T)} {below : List Nat}
    (h : r.FoldsTo g.children content below) {depth : Nat} (hdepth : 5 * below.length + 3 ≤ depth)
    (later : List Nat) (id : Nat) (before behind : List (Slot T)) :
    Reducing.Follows (do
        let x ← r.reduceGroup depth g
        Reducing.ofRun (Run.tell (.group id))
        return (before.length, before ++ .resolved x :: behind))
      (g.reduce r.associativity id content) (below ++ later) fun x result left =>
        result = (before.length, before ++ .resolved ⟨x, g.span.start⟩ :: behind) ∧ left = later := by
  obtain ⟨depth, rfl⟩ : ∃ d, depth = d + 2 := ⟨depth - 2, by omega⟩
  rw [reduceGroup_eq, GroupNode.reduce]
  simp only [bind_assoc, pure_bind]
  refine ((h (depth + 1) (by omega)).frame later).bind ?_
  rintro x y left ⟨own, rfl, rfl, rfl⟩
  refine Reducing.Follows.ofRun_bind rfl ?_
  exact Reducing.follows_pure ⟨rfl, rfl⟩

/-- Consuming the first slot that waits reduces the operand that begins there. A binary operator is none, if
another operator waits before it. -/
theorem Unfolds.follows_consume {n : Nat} (hbelow : r.FoldsBelow n) (h : r.Unfolds ids items order)
    (hn : order.length ≤ n) (hne : ids ≠ []) {depth : Nat} (hdepth : 5 * order.length ≤ depth)
    (before : List (Slot T)) (hbefore : (∃ front previous, before = front ++ [.pending previous]) ∨
      ∀ b right, items ≠ .binary b :: right) :
    (r.consume depth (before ++ Slot.pendings ids) before.length).Follows (Item.takeOperand items) order
      (r.HasConsumed before items order) := by
  induction h generalizing before depth with
  | nil => exact absurd rfl hne
  | @value id v ids order items hnode hrest ih =>
    rw [List.length_cons] at hdepth
    obtain ⟨depth, rfl⟩ : ∃ d, depth = d + 1 := ⟨depth - 1, by omega⟩
    rw [Slot.pendings_cons, consume_value _ _ _ hnode, Item.takeOperand, ← bind_pure (v.reduce r.leaf id)]
    refine Reducing.Follows.note_bind (Reducing.Follows.ofRun_bind rfl ?_)
    exact Reducing.follows_pure ⟨_, ids, rfl, rfl, hrest, Nat.lt_succ_self _⟩
  | @group id g ids below order content items hnode hcontent hrest ihc ihr =>
    rw [List.length_cons, List.length_append] at hn hdepth
    obtain ⟨depth, rfl⟩ : ∃ d, depth = d + 1 := ⟨depth - 1, by omega⟩
    have hinside : 5 * below.length + 3 ≤ depth := by omega
    have hgroup := (hbelow hcontent (by omega)).follows_group hinside order id before (Slot.pendings ids)
    rw [Slot.pendings_cons, consume_group _ _ _ hnode, Item.takeOperand]
    refine Reducing.Follows.note_bind (hgroup.mono ?_)
    rintro x result left ⟨rfl, rfl⟩
    refine ⟨_, ids, rfl, rfl, hrest, ?_⟩
    rw [List.length_cons, List.length_append]
    omega
  | @unary id o token apply ids order items hnode hoperator hrest ih =>
    rw [List.length_cons] at hdepth
    obtain ⟨depth, rfl⟩ : ∃ d, depth = d + 2 := ⟨depth - 2, by omega⟩
    rw [Slot.pendings_cons, consume_unary _ _ _ hnode hoperator, Item.takeOperand]
    refine Reducing.Follows.note_bind ?_
    cases ids with
    | nil =>
      cases hrest
      rw [Slot.pendings_nil, consumeUnary_last, Item.takeOperand, Run.fault_bind]
      exact Reducing.follows_fault (by simp)
    | cons next ids =>
      have hinside : 5 * order.length ≤ depth := by omega
      -- The operator itself now waits before its operand, which therefore is no binary operator.
      have hoperand := ih (Nat.le_of_succ_le hn) (List.cons_ne_nil _ _) hinside (before ++ [.pending id])
        (.inl ⟨before, id, rfl⟩)
      rw [consumeUnary_append]
      refine hoperand.bind ?_
      rintro x _ left ⟨start, ids', -, rfl, hdrop, hleft⟩
      simp only [Slot.takeResolved_append, pure_bind]
      refine Reducing.Follows.ofRun_bind rfl ?_
      rw [List.append_assoc, List.singleton_append, Slot.write_append, pure_bind]
      exact Reducing.follows_pure ⟨_, ids', rfl, rfl, hdrop, Nat.lt_succ_of_lt hleft⟩
  | @binary id o token apply ids order items hnode hoperator hrest ih =>
    rw [List.length_cons] at hdepth
    obtain ⟨depth, rfl⟩ : ∃ d, depth = d + 2 := ⟨depth - 2, by omega⟩
    obtain ⟨front, previous, rfl⟩ := hbefore.resolve_right fun h => h _ _ rfl
    rw [Slot.pendings_cons, consume_binary _ _ _ hnode hoperator, List.append_assoc, List.length_append,
      List.singleton_append, List.length_singleton, consumeBinary_pending]
    exact (Reducing.follows_fault (by simp)).note_bind

theorem Unfolds.follows_rightOperand {n : Nat} (hbelow : r.FoldsBelow n) (h : r.Unfolds ids items order)
    (hn : order.length < n) (hne : ids ≠ []) {depth : Nat} (hdepth : 5 * order.length + 3 ≤ depth)
    (front : List (Slot T)) (id : Nat) :
    (r.rightOperand depth (front ++ .pending id :: Slot.pendings ids) front.length).Follows
      (Item.rightOperand r.associativity items) order fun y result left =>
        ∃ z ids', z.toResolved = y ∧ result = (z, front ++ .pending id :: Slot.pendings ids') ∧
          r.Unfolds ids' (Item.afterRight r.associativity items) left ∧ left.length ≤ order.length := by
  have hslots (ids : List Nat) : front ++ .pending id :: Slot.pendings ids =
      (front ++ [.pending id]) ++ (Slot.pendings ids : List (Slot T)) := by
    rw [List.append_assoc, List.singleton_append]
  have hlength : front.length + 1 = (front ++ [Slot.pending id]).length := by
    rw [List.length_append, List.length_singleton]
  obtain ⟨depth, rfl⟩ : ∃ d, depth = d + 1 := ⟨depth - 1, by omega⟩
  rw [Reducer.rightOperand, hslots, hlength]
  cases ha : r.associativity with
  | left =>
    have hinside : 5 * order.length ≤ depth := by omega
    have hoperand := h.follows_consume hbelow (Nat.le_of_lt hn) hne hinside (front ++ [.pending id])
      (.inl ⟨front, id, rfl⟩)
    rw [Item.rightOperand, ← bind_pure (Item.takeOperand items)]
    refine hoperand.bind ?_
    rintro x _ left ⟨start, ids', -, rfl, hdrop, hleft⟩
    dsimp only
    rw [Slot.takeResolved_append]
    exact Reducing.follows_pure ⟨_, ids', rfl, by rw [hslots], hdrop, Nat.le_of_lt hleft⟩
  | right =>
    have hfold := hbelow h hn depth (by omega)
    rw [ha] at hfold
    have hitems : Item.fold .right items = Item.foldRight items := by
      cases h with
      | nil => exact absurd rfl hne
      | value | group | unary | binary => rfl
    dsimp only
    rw [Slot.splitOff_append, pure_bind, Item.rightOperand, ← hitems, ← bind_pure (Item.fold .right items)]
    refine hfold.bind ?_
    rintro x y left ⟨rfl, rfl⟩
    exact Reducing.follows_pure ⟨y, [], rfl, rfl, .nil, Nat.zero_le _⟩

/-- A binary operator behind what has been reduced to `x` combines that with its right operand. -/
theorem Unfolds.follows_consumeBinary {n : Nat} (hbelow : r.FoldsBelow n) (h : r.Unfolds ids items order)
    (hn : order.length < n) {depth : Nat} (hdepth : 5 * order.length + 4 ≤ depth) (b : BinaryUse T) (x : Placed T)
    (id : Nat) :
    (r.consumeBinary depth (.resolved x :: .pending id :: Slot.pendings ids) 1 b).Follows
      (Item.rightOperand r.associativity items >>= b.combine x.toResolved) order fun z result left =>
        ∃ ids', result = (0, .resolved ⟨z, x.start⟩ :: Slot.pendings ids') ∧
          r.Unfolds ids' (Item.afterRight r.associativity items) left ∧ left.length ≤ order.length := by
  have hread : Slot.read (.resolved x :: .pending id :: Slot.pendings ids) (1 - 1) = pure (.resolved x) :=
    Slot.read_append [] _ _
  obtain ⟨depth, rfl⟩ : ∃ d, depth = d + 1 := ⟨depth - 1, by omega⟩
  rw [consumeBinary, if_neg (Nat.succ_ne_zero _), hread, pure_bind]
  dsimp only
  by_cases hne : ids = []
  · subst hne
    cases h
    rw [if_pos (by simp), Item.rightOperand_nil, Run.fault_bind]
    exact Reducing.follows_fault (by simp)
  · rw [if_neg (by simpa [List.length_eq_zero_iff] using hne)]
    refine (h.follows_rightOperand hbelow hn hne (by omega) [.resolved x] id).bind ?_
    rintro y _ left ⟨z, ids', rfl, rfl, hafter, hleft⟩
    have hremove : Slot.remove ([.resolved x] ++ .pending id :: Slot.pendings ids') 1 =
        pure (.pending id, [.resolved x] ++ Slot.pendings ids') := Slot.remove_append [.resolved x] _ _
    have htake : Slot.takeResolved ([.resolved x] ++ Slot.pendings ids') 0 = pure (x, Slot.pendings ids') :=
      Slot.takeResolved_append [] _ x
    simp only [hremove, Nat.sub_self, htake, Slot.insert_zero, pure_bind]
    rw [← bind_pure (b.combine x.toResolved z.toResolved)]
    refine Reducing.Follows.ofRun_bind rfl ?_
    exact Reducing.follows_pure ⟨ids', rfl, hafter, hleft⟩

section

variable {id : Nat} {item : Item T} {n : Nat}

/-- A fold begins with the operand that its items begin with. A binary operator there has nothing to its
left. -/
theorem Unfolds.follows_takeFirst (hbelow : r.FoldsBelow n) (h : r.Unfolds (id :: ids) (item :: items) order)
    (hn : order.length ≤ n) {depth : Nat} (hdepth : 5 * order.length ≤ depth) :
    ((r.consume depth (Slot.pendings (id :: ids)) 0).orAt item.start).Follows (Item.takeFirst (item :: items)) order
      (r.HasConsumed [] (item :: items) order) := by
  by_cases hitem : ∃ b, item = .binary b
  · obtain ⟨b, rfl⟩ := hitem
    cases h with
    | binary hnode hoperator hrest =>
      rw [List.length_cons] at hdepth
      obtain ⟨depth, rfl⟩ : ∃ d, depth = d + 2 := ⟨depth - 2, by omega⟩
      have hconsume := consume_binary (depth + 1) [] (Slot.pendings ids) hnode hoperator
      rw [List.nil_append, List.length_nil, consumeBinary, if_pos rfl] at hconsume
      rw [Slot.pendings_cons, hconsume]
      exact ((Reducing.follows_fault (by simp)).note_bind).orAt _
  · have hfirst : ∀ b, item ≠ .binary b := fun b hb => hitem ⟨b, hb⟩
    rw [Item.takeFirst_cons _ hfirst]
    exact (h.follows_consume hbelow hn (List.cons_ne_nil _ _) hdepth []
      (.inr fun b right heq => hfirst b (List.cons_eq_cons.mp heq).1)).orAt item.start

/-- An operand behind another one is reduced before it is found that nothing combines the two. -/
theorem Unfolds.follows_strayOperand (hbelow : r.FoldsBelow n) (h : r.Unfolds (id :: ids) (item :: items) order)
    (hn : order.length ≤ n) {depth : Nat} (hdepth : 5 * order.length + 2 ≤ depth) (hitem : ∀ b, item ≠ .binary b)
    (x : Placed T) {post : Resolved T → List (Slot T) → List Nat → Prop} :
    (r.foldOn depth (.resolved x :: Slot.pendings (id :: ids)) 0).Follows (Item.strayOperand item items) order
      post := by
  have hpos : 0 < order.length := by
    cases h <;> exact Nat.succ_pos _
  obtain ⟨depth, rfl⟩ : ∃ d, depth = d + 3 := ⟨depth - 3, by omega⟩
  have hinside : 5 * order.length ≤ depth + 1 := by omega
  have hconsume := h.follows_consume hbelow hn (List.cons_ne_nil _ _) hinside [.resolved x]
    (.inr fun b right heq => hitem b (List.cons_eq_cons.mp heq).1)
  rw [foldOn_cons, h.foldFrom_eq, Item.strayOperand]
  refine (hconsume.orAt item.start).bind ?_
  rintro y _ left ⟨start, ids', hstart, rfl, -, -⟩
  cases hstart
  dsimp only
  rw [foldOn, if_pos (by simp), Slot.read_append, pure_bind, Reducer.startOf, pure_bind]
  exact Reducing.follows_fail (by simp)

end

/-- Folding slots whose nodes unfold to items comes to what the fold of these comes to. -/
theorem Unfolds.folds (h : r.Unfolds ids items order) : r.FoldsOnTo ids items order ∧ r.FoldsTo ids items order := by
  -- A group's content, the tail behind a binary operator and what an operand leaves behind have fewer nodes each.
  induction hlength : order.length using Nat.strongRecOn generalizing ids items order with
  | ind n ih =>
    subst hlength
    have hbelow : r.FoldsBelow order.length := fun h hlt => (ih _ hlt h rfl).2
    cases ids with
    | nil =>
      cases h
      refine ⟨?_, ?_⟩
      · intro depth hdepth x
        obtain ⟨depth, rfl⟩ : ∃ d, depth = d + 1 := ⟨depth - 1, by omega⟩
        rw [Item.foldFrom_nil, foldOn, if_neg (by simp), if_pos (by simp)]
        exact Reducing.follows_pure ⟨rfl, rfl⟩
      · intro depth hdepth
        obtain ⟨depth, rfl⟩ : ∃ d, depth = d + 1 := ⟨depth - 1, by omega⟩
        rw [fold]
        exact Reducing.follows_fault (by simp)
    | cons id ids =>
      obtain ⟨item, items, rfl⟩ : ∃ item rest, items = item :: rest := by
        cases h <;> exact ⟨_, _, rfl⟩
      refine ⟨?_, ?_⟩
      · intro depth hdepth x
        by_cases hitem : ∃ b, item = .binary b
        · obtain ⟨b, rfl⟩ := hitem
          obtain ⟨depth, rfl⟩ : ∃ d, depth = d + 2 := ⟨depth - 2, by omega⟩
          rw [foldOn_cons, h.foldFrom_eq]
          cases h with
          | @binary _ o token apply _ order _ hnode hoperator hrest =>
            rw [List.length_cons] at hdepth
            obtain ⟨depth, rfl⟩ : ∃ d, depth = d + 1 := ⟨depth - 1, by omega⟩
            have hinside : 5 * order.length + 4 ≤ depth := by omega
            have hconsume := hrest.follows_consumeBinary hbelow (Nat.lt_succ_self _) hinside
              ⟨id, o.span.start, token, apply⟩ x id
            rw [Slot.pendings_cons, consume_binary _ _ _ hnode hoperator, Item.foldFrom_binary_eq]
            refine (hconsume.note_bind.orAt _).bind ?_
            rintro z _ left ⟨ids', rfl, hafter, hleft⟩
            exact (ih _ (Nat.lt_succ_of_le hleft) hafter rfl).1 (depth + 1) (by omega) ⟨z, x.start⟩
        · have hstray : ∀ b, item ≠ .binary b := fun b hb => hitem ⟨b, hb⟩
          rw [Item.foldFrom_stray _ _ _ hstray]
          exact h.follows_strayOperand hbelow (Nat.le_refl _) hdepth hstray x
      · intro depth hdepth
        obtain ⟨depth, rfl⟩ : ∃ d, depth = d + 2 := ⟨depth - 2, by omega⟩
        rw [h.fold_eq, Item.fold_cons]
        refine (h.follows_takeFirst hbelow (Nat.le_refl _) (by omega)).bind ?_
        rintro x _ left ⟨start, ids', -, rfl, hdrop, hleft⟩
        rw [← bind_pure (Item.foldFrom _ x _)]
        refine ((ih _ hleft hdrop rfl).1 depth (by omega) ⟨x, start⟩).bind ?_
        rintro y _ _ ⟨rfl, rfl⟩
        have htake : Slot.takeResolved [.resolved ⟨y, start⟩] 0 = pure (⟨y, start⟩, []) :=
          Slot.takeResolved_append [] [] _
        rw [htake, pure_bind]
        exact Reducing.follows_pure ⟨rfl, rfl⟩

end Reducer

end Bracketed
