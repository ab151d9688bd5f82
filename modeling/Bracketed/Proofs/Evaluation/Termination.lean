import Bracketed.Proofs.Evaluation.Safety
import Bracketed.Proofs.Scan.Preorder
import Mathlib.Data.List.Nodup

namespace Bracketed

variable {T : Type}

/-- A sum of one has a single one among zeros. -/
theorem exists_index_of_sum_eq_one {ks : List Nat} (h : ks.sum = 1) :
    ∃ p < ks.length, ∀ q k, ks[q]? = some k → k = if q = p then 1 else 0 := by
  induction ks with
  | nil => cases h
  | cons k ks ih =>
    rw [List.sum_cons] at h
    by_cases hk : k = 0
    · obtain ⟨p, hp, hrest⟩ := ih (by omega)
      refine ⟨p + 1, Nat.succ_lt_succ hp, ?_⟩
      rintro (_ | q) j hj
      · cases hj
        simpa using hk
      · simpa using hrest q j hj
    · have hzero : ks.sum = 0 := by omega
      refine ⟨0, Nat.succ_pos _, ?_⟩
      rintro (_ | q) j hj
      · cases hj
        rw [if_pos rfl]
        omega
      · rw [if_neg (Nat.succ_ne_zero q)]
        exact List.sum_eq_zero_iff_forall_eq_nat.mp hzero j (List.mem_of_getElem? hj)

namespace Reducer

/-- The nodes are a tree below the first of them, in which each node has a greater number than the group that it
is a child of. Nothing else is said of the order of their numbers, or of their places in a text. -/
structure IsTree (r : Reducer T) : Prop where
  root : ∃ g, r.nodes[0]? = some (.group g)
  children : ∀ id g, r.nodes[id]? = some (.group g) → ∀ child ∈ g.children, id < child ∧ child < r.nodes.length
  /-- Taken together, the children of all groups are all nodes but the first, each once. -/
  listed : ∀ id, 0 < id → id < r.nodes.length → (r.nodes.flatMap Node.children).count id = 1
  operators : ∀ o, .operator o ∈ r.nodes → o.operator < r.operators.length

/-- Only the node with the number `p` has `child` for a child, and has it once. -/
def IsParent (r : Reducer T) (p child : Nat) : Prop :=
  ∀ q n, r.nodes[q]? = some n → n.children.count child = if q = p then 1 else 0

variable {r : Reducer T}

theorem IsTree.exists_isParent (h : r.IsTree) {child : Nat} (hpos : 0 < child) (hlt : child < r.nodes.length) :
    ∃ p < child, r.IsParent p child := by
  have hsum := h.listed child hpos hlt
  rw [List.count_flatMap] at hsum
  obtain ⟨p, hp, hcounts⟩ := exists_index_of_sum_eq_one hsum
  rw [List.length_map] at hp
  have hparent : r.IsParent p child := by
    intro q n hn
    refine hcounts q _ ?_
    rw [List.getElem?_map, hn]
    rfl
  have hnode := List.getElem?_eq_getElem hp
  have hmem : child ∈ r.nodes[p].children := by
    rw [← List.count_pos_iff, hparent p _ hnode, if_pos rfl]
    exact Nat.one_pos
  cases hkind : r.nodes[p] with
  | value v =>
    rw [hkind] at hmem
    cases hmem
  | operator o =>
    rw [hkind] at hmem
    cases hmem
  | group g =>
    rw [hkind] at hmem hnode
    exact ⟨p, (h.children p g hnode child hmem).1, hparent⟩

/-- The children of a group have greater numbers, of which there are not many left. -/
theorem IsTree.exists_unfolds (h : r.IsTree) (k : Nat) (ids : List Nat)
    (hids : ∀ id ∈ ids, r.nodes.length ≤ id + k ∧ id < r.nodes.length) :
    ∃ items order, r.Unfolds ids items order := by
  induction k generalizing ids with
  | zero =>
    cases ids with
    | nil => exact ⟨[], [], .nil⟩
    | cons id ids =>
      have hbounds := hids id List.mem_cons_self
      omega
  | succ k ihk =>
    induction ids with
    | nil => exact ⟨[], [], .nil⟩
    | cons id ids ih =>
      obtain ⟨items, order, hrest⟩ := ih fun id hid => hids id (List.mem_cons_of_mem _ hid)
      obtain ⟨hge, hlt⟩ := hids id List.mem_cons_self
      have hnode := List.getElem?_eq_getElem hlt
      cases hkind : r.nodes[id] with
      | value v =>
        rw [hkind] at hnode
        exact ⟨_, _, .value hnode hrest⟩
      | operator o =>
        rw [hkind] at hnode
        have hindex := h.operators o (List.mem_of_getElem? hnode)
        have hfound := List.getElem?_eq_getElem hindex
        rcases hoperator : r.operators[o.operator] with ⟨token, apply | apply⟩
        · rw [hoperator] at hfound
          exact ⟨_, _, .unary hnode hfound hrest⟩
        · rw [hoperator] at hfound
          exact ⟨_, _, .binary hnode hfound hrest⟩
      | group g =>
        rw [hkind] at hnode
        obtain ⟨content, below, hcontent⟩ := ihk g.children fun child hchild => by
          have hbounds := h.children id g hnode child hchild
          omega
        exact ⟨_, _, .group hnode hcontent hrest⟩

/-- A node comes up where it is a sibling itself, and wherever its parent comes up. -/
theorem Unfolds.count_eq {ids order : List Nat} {items : List (Item T)} (h : r.Unfolds ids items order)
    {p child : Nat} (hparent : r.IsParent p child) : order.count child = ids.count child + order.count p := by
  induction h with
  | nil => rfl
  | @value id _ _ _ _ hnode _ ih | @unary id _ _ _ _ _ _ hnode _ _ ih | @binary id _ _ _ _ _ _ hnode _ _ ih =>
    have hne : id ≠ p := by
      rintro rfl
      have hcount := hparent id _ hnode
      rw [if_pos rfl] at hcount
      cases hcount
    rw [List.count_cons, List.count_cons, List.count_cons_of_ne hne, ih]
    omega
  | @group id g _ _ _ _ _ hnode _ _ ihc ihr =>
    have hchildren : g.children.count child = if id = p then 1 else 0 := hparent id _ hnode
    simp only [List.count_cons, List.count_append, beq_iff_eq, ihc, ihr, hchildren]
    omega

theorem IsTree.mem_of_unfolds (h : r.IsTree) {ids order : List Nat} {items : List (Item T)}
    (hunfolds : r.Unfolds ids items order) (hids : ∀ id ∈ ids, 0 < id) :
    ∀ id ∈ order, 0 < id ∧ id < r.nodes.length := by
  induction hunfolds with
  | nil => simp
  | @value id _ _ _ _ hnode _ ih | @unary id _ _ _ _ _ _ hnode _ _ ih | @binary id _ _ _ _ _ _ hnode _ _ ih =>
    rw [List.forall_mem_cons] at hids ⊢
    exact ⟨⟨hids.1, (List.getElem?_eq_some_iff.mp hnode).1⟩, ih hids.2⟩
  | @group id g _ _ _ _ _ hnode _ _ ihc ihr =>
    rw [List.forall_mem_cons] at hids ⊢
    refine ⟨⟨hids.1, (List.getElem?_eq_some_iff.mp hnode).1⟩, ?_⟩
    rw [List.forall_mem_append]
    exact ⟨ihc fun child hchild => Nat.zero_lt_of_lt (h.children id g hnode child hchild).1, ihr hids.2⟩

theorem IsTree.mem_order (h : r.IsTree) {g : GroupNode} (hroot : r.nodes[0]? = some (.group g))
    {order : List Nat} {items : List (Item T)} (hunfolds : r.Unfolds g.children items order) :
    ∀ id ∈ order, 0 < id ∧ id < r.nodes.length :=
  h.mem_of_unfolds hunfolds fun child hchild => (h.children 0 g hroot child hchild).1

/-- The first node's children unfold to each other node once, since it comes up as often as its parent does. -/
theorem IsTree.count_order (h : r.IsTree) {g : GroupNode} (hroot : r.nodes[0]? = some (.group g))
    {order : List Nat} {items : List (Item T)} (hunfolds : r.Unfolds g.children items order) {id : Nat}
    (hpos : 0 < id) (hlt : id < r.nodes.length) : order.count id = 1 := by
  induction id using Nat.strongRecOn with
  | ind id ih =>
    obtain ⟨p, hp, hparent⟩ := h.exists_isParent hpos hlt
    have hchildren : g.children.count id = if 0 = p then 1 else 0 := hparent 0 _ hroot
    rw [hunfolds.count_eq hparent, hchildren]
    by_cases hzero : p = 0
    · subst hzero
      have hnone : 0 ∉ order := fun hmem => Nat.lt_irrefl 0 (h.mem_order hroot hunfolds 0 hmem).1
      rw [List.count_eq_zero.mpr hnone, if_pos rfl]
    · rw [if_neg (Ne.symm hzero), ih p hp (Nat.pos_of_ne_zero hzero) (hp.trans hlt)]

theorem IsTree.order_perm (h : r.IsTree) {g : GroupNode} (hroot : r.nodes[0]? = some (.group g))
    {order : List Nat} {items : List (Item T)} (hunfolds : r.Unfolds g.children items order) :
    order.Perm (List.range' 1 (r.nodes.length - 1)) := by
  have hbounds := h.mem_order hroot hunfolds
  have hnodup : order.Nodup := by
    rw [List.nodup_iff_count_eq_one]
    intro id hmem
    exact h.count_order hroot hunfolds (hbounds id hmem).1 (hbounds id hmem).2
  rw [List.perm_ext_iff_of_nodup hnodup List.nodup_range']
  intro id
  rw [List.mem_range'_1]
  refine ⟨?_, ?_⟩
  · intro hmem
    have hid := hbounds id hmem
    omega
  · intro hid
    rw [← List.count_pos_iff, h.count_order hroot hunfolds (by omega) (by omega)]
    exact Nat.one_pos

theorem IsTree.length_order_lt (h : r.IsTree) {g : GroupNode} (hroot : r.nodes[0]? = some (.group g))
    {order : List Nat} {items : List (Item T)} (hunfolds : r.Unfolds g.children items order) :
    order.length < r.nodes.length := by
  obtain ⟨hpos, _⟩ := List.getElem?_eq_some_iff.mp hroot
  rw [(h.order_perm hroot hunfolds).length_eq, List.length_range']
  exact Nat.sub_lt hpos Nat.one_pos

end Reducer

/-- The nodes of a text that parses are such a tree. -/
theorem Parser.isTree_reducer {p : Parser T} {source : String} {e : Expression T} (h : p.parse source = .ok e)
    (leaf : String → T) : (e.reducer leaf).IsTree where
  root := ⟨e.root, rfl⟩
  children := by
    intro id g hg child hchild
    have hlists : Node.Lists e.nodes id child := ⟨_, hg, hchild⟩
    exact ⟨(growsAt_of_parse h).lt id child hlists, (growsAt_of_parse h).lt_length hlists⟩
  listed := by
    intro id hpos hlt
    change (e.nodes.flatMap Node.children).count id = 1
    change id < e.nodes.length at hlt
    rw [(growsAt_of_parse h).listed.count_eq]
    exact List.count_eq_one_of_mem List.nodup_range' (List.mem_range'_1.mpr ⟨hpos, by omega⟩)
  operators := fun o ho => operator_lt_of_parse h ho

/-- Reduction in slots comes to an end on every tree, without leaving its tables. It consumes no node twice, and
when it succeeds it has consumed all nodes but the first. Every text that parses gives such a tree. -/
theorem Reducer.reduce_consumes_once :
    (∀ r : Reducer T, r.IsTree → ∃ outcome trace, r.ComesTo outcome trace ∧ Reducing.IsSafe outcome ∧
      trace.consumed.Nodup ∧
      ∀ x, outcome = .ok x → trace.consumed.Perm (List.range' 1 (r.nodes.length - 1))) ∧
    ∀ (p : Parser T) (source : String) (e : Expression T) (leaf : String → T), p.parse source = .ok e →
      (e.reducer leaf).IsTree := by
  refine ⟨?_, fun p source e leaf h => p.isTree_reducer h leaf⟩
  intro r h
  obtain ⟨g, hroot⟩ := h.root
  obtain ⟨items, order, hunfolds⟩ := h.exists_unfolds r.nodes.length g.children fun child hchild =>
    ⟨Nat.le_add_left _ _, (h.children 0 g hroot child hchild).2⟩
  have hperm := h.order_perm hroot hunfolds
  obtain ⟨outcome, trace, hcomes, hsafe, _, _, hconsumed, hall⟩ :=
    hunfolds.exists_comesTo hroot (h.length_order_lt hroot hunfolds)
  refine ⟨outcome, trace, hcomes, hsafe, ?_, ?_⟩
  · exact (hperm.nodup_iff.mpr List.nodup_range').sublist hconsumed.sublist
  · intro x hx
    rw [hall x hx]
    exact hperm

/-- A tree of `a - (b)` that reading this text does not give: the numbers of the nodes follow another order. -/
def Reducer.scattered : Reducer String where
  operators := Parser.bracketing.operators
  leaf := id
  associativity := .left
  nodes := [
    .group ⟨none, none, [3, 4, 1], ⟨0, 7⟩, 1⟩, .group ⟨some 0, some ⟨"(", ")"⟩, [2], ⟨4, 7⟩, 0⟩,
    .value ⟨"b", 1, ⟨5, 6⟩⟩, .value ⟨"a", 2, ⟨0, 1⟩⟩, .operator ⟨1, ⟨2, 3⟩⟩]

theorem Reducer.isTree_scattered : scattered.IsTree where
  root := ⟨_, rfl⟩
  children := by
    rintro (_ | _ | _ | _ | _ | id) g hg <;> cases hg
    · decide
    · decide
  listed := by
    rintro (_ | _ | _ | _ | _ | id) hpos hlt
    · cases hpos
    · decide
    · decide
    · decide
    · decide
    · change id + 5 < 5 at hlt
      omega
  operators := by
    intro o ho
    simp only [scattered, List.mem_cons, reduceCtorEq, Node.operator.injEq, List.not_mem_nil, or_false, false_or] at ho
    subst ho
    decide

theorem Reducer.reduce_consumes_once_scattered :
    scattered.IsTree ∧
      (∃ x trace, scattered.ComesTo (.ok x) trace ∧ x.toResolved = ⟨"[a-b]", 7⟩ ∧ trace.consumed = [3, 4, 1, 2] ∧
        trace.consumed.Perm [1, 2, 3, 4]) ∧
      Parser.bracketing.parse "a - b - (~c)" = .ok Parser.bracketed ∧ (Parser.bracketed.reducer id).IsTree := by
  obtain ⟨honce, hparse⟩ := reduce_consumes_once (T := String)
  refine ⟨isTree_scattered, ?_, Parser.parse_bracketing, hparse _ _ _ id Parser.parse_bracketing⟩
  obtain ⟨outcome, trace, hcomes, _, _, hall⟩ := honce _ isTree_scattered
  have hreduce : ∃ x trace, (scattered.reduce scattered.ampleDepth).outcome {} = some (.ok x, trace) ∧
      x.toResolved = ⟨"[a-b]", 7⟩ ∧ trace.consumed = [3, 4, 1, 2] := ⟨_, _, rfl, rfl, rfl⟩
  obtain ⟨x, trace', houtcome, hx, hconsumed⟩ := hreduce
  obtain ⟨rfl, rfl⟩ := Prod.mk.inj (Option.some.inj ((hcomes _ (Nat.le_refl _)).symm.trans houtcome))
  exact ⟨x, trace, hcomes, hx, hconsumed, hall x rfl⟩

end Bracketed
