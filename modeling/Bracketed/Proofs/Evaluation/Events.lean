import Bracketed.Proofs.Arena
import Bracketed.Proofs.Evaluation.Nesting
import Mathlib.Data.List.Perm.Subperm

namespace Bracketed

variable {T : Type} {α β : Type}

namespace Event

/-- An event without the values that the caller's function is applied to. -/
def bare : Event T → Event Unit
  | leaf id text => leaf id text
  | unary id token _ => unary id token ()
  | binary id token _ _ => binary id token () ()
  | group id => group id

/-- The number and the text of the value whose meaning an event asks for. -/
def leaf? : Event T → Option (Nat × String)
  | leaf id text => some (id, text)
  | _ => none

@[simp] theorem id_bare (event : Event T) : event.bare.id = event.id := by
  cases event <;> rfl

end Event

/-- A run with events to let happen, whatever the values in them are. If it succeeds each of them has happened
once; if it fails none has happened twice. It comes to the leaves in the order in which they are listed, of
which it has reached the first ones when it fails. -/
inductive Run.Performs (tasks : List (Event Unit)) (r : Run T α) : Prop where
  | ok {a : α} (hr : r.result = .ok a) (hevents : (r.events.map Event.bare).Perm tasks)
      (hleaves : r.events.filterMap Event.leaf? = tasks.filterMap Event.leaf?)
  | error {e : EvalError} (hr : r.result = .error e) (hevents : (r.events.map Event.bare).Subperm tasks)
      (hleaves : r.events.filterMap Event.leaf? <+: tasks.filterMap Event.leaf?)

namespace Run

variable {tasks tasks' : List (Event Unit)} {r : Run T α}

theorem performs_fail (e : EvalError) (tasks : List (Event Unit)) : (fail e : Run T α).Performs tasks :=
  .error rfl List.nil_subperm List.nil_prefix

theorem performs_pure (a : α) : (pure a : Run T α).Performs [] :=
  .ok rfl .nil rfl

theorem performs_tell (event : Event T) : (tell event).Performs [event.bare] := by
  refine .ok rfl (List.Perm.refl _) ?_
  cases event <;> rfl

theorem Performs.orAt (h : r.Performs tasks) (position : Nat) : (r.orAt position).Performs tasks := by
  cases h with
  | ok hr hevents hleaves => exact .ok (orAt_eq_ok_iff.mpr hr) hevents hleaves
  | error hr hevents hleaves => exact .error (orAt_eq_error_iff.mpr ⟨_, hr, rfl⟩) hevents hleaves

theorem Performs.bind {next : α → Run T β} (h : r.Performs tasks) (hnext : ∀ a, (next a).Performs tasks') :
    (r >>= next).Performs (tasks ++ tasks') := by
  cases h with
  | @ok a hr hevents hleaves =>
    have happend := events_bind_of_ok hr next
    cases hnext a with
    | ok hb hevents' hleaves' =>
      refine .ok (bind_eq_ok_iff.mpr ⟨a, hr, hb⟩) ?_ ?_
      · rw [happend, List.map_append]
        exact hevents.append hevents'
      · rw [happend, List.filterMap_append, List.filterMap_append, hleaves, hleaves']
    | error he hevents' hleaves' =>
      refine .error (bind_eq_error_iff.mpr (.inr ⟨a, hr, he⟩)) ?_ ?_
      · rw [happend, List.map_append]
        exact hevents.subperm.append hevents'
      · rw [happend, List.filterMap_append, List.filterMap_append, hleaves]
        exact (List.prefix_append_right_inj _).mpr hleaves'
  | error hr hevents hleaves =>
    refine .error (bind_eq_error_iff.mpr (.inl hr)) ?_ ?_
    · rw [events_bind_of_error hr]
      exact hevents.trans (List.sublist_append_left tasks tasks').subperm
    · rw [events_bind_of_error hr, List.filterMap_append]
      exact hleaves.trans (List.prefix_append _ _)

theorem Performs.of_ok {a : α} (h : r.Performs tasks) (hr : r.result = .ok a) :
    (r.events.map Event.bare).Perm tasks ∧ r.events.filterMap Event.leaf? = tasks.filterMap Event.leaf? := by
  cases h with
  | ok _ hevents hleaves => exact ⟨hevents, hleaves⟩
  | error he =>
    rw [hr] at he
    cases he

theorem Performs.subperm (h : r.Performs tasks) : (r.events.map Event.bare).Subperm tasks := by
  cases h with
  | ok _ hevents _ => exact hevents.subperm
  | error _ hevents _ => exact hevents

theorem Performs.leaves_isPrefix (h : r.Performs tasks) :
    r.events.filterMap Event.leaf? <+: tasks.filterMap Event.leaf? := by
  cases h with
  | ok _ _ hleaves => exact hleaves ▸ List.prefix_refl _
  | error _ _ hleaves => exact hleaves

/-- Only the order of the leaves matters among the events to let happen. -/
theorem Performs.perm (h : r.Performs tasks) (hperm : tasks.Perm tasks')
    (hleaves : tasks.filterMap Event.leaf? = tasks'.filterMap Event.leaf?) : r.Performs tasks' := by
  cases h with
  | ok hr hevents hleaves' => exact .ok hr (hevents.trans hperm) (hleaves'.trans hleaves)
  | error hr hevents hleaves' => exact .error hr (hperm.subperm_left.mp hevents) (hleaves ▸ hleaves')

/-- An operator or a group may be listed before what happens before it. -/
theorem Performs.front {event : Event Unit} (h : r.Performs (tasks ++ event :: tasks'))
    (hleaf : event.leaf? = none) : r.Performs (event :: (tasks ++ tasks')) := by
  refine h.perm List.perm_middle ?_
  rw [List.filterMap_append, List.filterMap_cons_none hleaf, List.filterMap_cons_none hleaf, List.filterMap_append]

end Run

/-- What reducing an item lets happen. -/
inductive Item.Performs : List (Event Unit) → Item T → Prop where
  | operand {start : Nat} {reduce : Run T (Resolved T)} {tasks : List (Event Unit)} (h : reduce.Performs tasks) :
      Performs tasks (.operand start reduce)
  | unary (u : UnaryUse T) : Performs [.unary u.id u.token ()] (.unary u)
  | binary (b : BinaryUse T) : Performs [.binary b.id b.token () ()] (.binary b)

/-- What reducing items from left to right lets happen. -/
inductive Item.AllPerform : List (Event Unit) → List (Item T) → Prop where
  | nil : AllPerform [] []
  | cons {item : Item T} {items : List (Item T)} {tasks tasks' : List (Event Unit)} (hhead : item.Performs tasks)
      (htail : AllPerform tasks' items) : AllPerform (tasks ++ tasks') (item :: items)

theorem UnaryUse.performs_combine (u : UnaryUse T) (x : Resolved T) :
    (u.combine x).Performs [.unary u.id u.token ()] :=
  (Run.performs_tell (.unary u.id u.token x.value)).bind fun _ => Run.performs_pure _

theorem BinaryUse.performs_combine (b : BinaryUse T) (x y : Resolved T) :
    (b.combine x y).Performs [.binary b.id b.token () ()] :=
  (Run.performs_tell (.binary b.id b.token x.value y.value)).bind fun _ => Run.performs_pure _

namespace Item

variable {tasks tasks' : List (Event Unit)}

/-- The operand that items begin with performs the first part of what all of them do, and the items behind it
the rest. -/
theorem AllPerform.takeOperand {items : List (Item T)} (h : AllPerform tasks items) :
    ∃ taken left, tasks = taken ++ left ∧ (takeOperand items).Performs taken ∧
      AllPerform left (dropOperand items) := by
  induction h with
  | nil => exact ⟨[], [], rfl, Run.performs_fail _ _, .nil⟩
  | @cons item items tasks tasks' hhead htail ih =>
    cases hhead with
    | operand hreduce => exact ⟨tasks, tasks', rfl, hreduce, htail⟩
    | binary b => exact ⟨_, tasks', rfl, Run.performs_fail _ _, htail⟩
    | unary u =>
      obtain ⟨taken, left, rfl, htake, hdrop⟩ := ih
      have hcombine := (htake.bind u.performs_combine).front rfl
      rw [List.append_nil] at hcombine
      exact ⟨.unary u.id u.token () :: taken, left, rfl, hcombine, hdrop⟩

theorem AllPerform.takeFirst {items : List (Item T)} (h : AllPerform tasks items) :
    ∃ taken left, tasks = taken ++ left ∧ (takeFirst items).Performs taken ∧
      AllPerform left (dropOperand items) := by
  obtain ⟨taken, left, rfl, htake, hdrop⟩ := h.takeOperand
  refine ⟨taken, left, rfl, ?_, hdrop⟩
  cases items with
  | nil => exact Run.performs_fail _ _
  | cons first rest =>
    cases first with
    | operand | unary => exact htake.orAt _
    | binary => exact (Run.performs_fail _ _).orAt _

theorem AllPerform.strayOperand {item : Item T} {rest : List (Item T)} (h : AllPerform tasks (item :: rest)) :
    (strayOperand item rest).Performs tasks := by
  obtain ⟨taken, left, rfl, htake, _⟩ := h.takeOperand
  exact (htake.orAt _).bind fun _ => Run.performs_fail _ _

/-- A fold performs what its items do, whatever operand stands to their left. -/
theorem AllPerform.foldFrom_and_fold (a : Associativity) {items : List (Item T)} (h : AllPerform tasks items) :
    (∀ x, (foldFrom a x items).Performs tasks) ∧ (fold a items).Performs tasks := by
  -- Every binary operator hands fewer items on, whether it takes one operand or all that is to its right.
  induction hlength : items.length using Nat.strongRecOn generalizing tasks items with
  | ind n ih =>
    subst hlength
    refine ⟨?_, ?_⟩
    · intro x
      cases h with
      | nil =>
        rw [foldFrom_nil]
        exact Run.performs_pure x
      | @cons item right headTasks tasks hhead htail =>
        cases hhead with
        | operand hreduce =>
          rw [foldFrom_stray _ _ _ (by simp)]
          exact (AllPerform.cons (.operand hreduce) htail).strayOperand
        | unary u =>
          rw [foldFrom_stray _ _ _ (by simp)]
          exact (AllPerform.cons (.unary u) htail).strayOperand
        | binary b =>
          cases a with
          | left =>
            have hshort : (dropOperand right).length < right.length + 1 :=
              Nat.lt_succ_of_le (length_dropOperand_le right)
            obtain ⟨taken, left, rfl, htake, hdrop⟩ := htail.takeOperand
            rw [foldFrom, foldLeftFrom]
            refine ((htake.orAt b.start).bind ?_).front rfl
            intro y
            exact (b.performs_combine x y).bind (ih _ hshort hdrop rfl).1
          | right =>
            have hfold : (foldRight right).Performs tasks := by
              have hshort := (ih _ (Nat.lt_succ_self right.length) htail rfl).2
              cases right with
              | nil =>
                rw [foldRight]
                exact Run.performs_fail _ _
              | cons => exact hshort
            rw [foldFrom, ← List.append_nil tasks]
            exact ((hfold.orAt b.start).bind (b.performs_combine x)).front rfl
    · cases items with
      | nil => exact Run.performs_fail _ _
      | cons first rest =>
        obtain ⟨taken, left, rfl, htake, hdrop⟩ := h.takeFirst
        rw [fold_cons]
        exact htake.bind (ih _ (length_dropOperand_lt (List.cons_ne_nil _ _)) hdrop rfl).1

end Item

theorem Enclosure.performs_reduce (e : Enclosure) (a : Associativity) (id : Nat) {tasks : List (Event Unit)}
    {content : List (Item T)} (h : Item.AllPerform tasks content) :
    (e.reduce a id content).Performs (.group id :: tasks) := by
  have hfold := (h.foldFrom_and_fold a).2
  rw [← List.append_nil tasks]
  refine (hfold.bind ?_).front rfl
  intro x
  exact (Run.performs_tell (.group id)).bind fun _ => Run.performs_pure _

/-- The event that happens to a node when it is evaluated. -/
def Node.event? (operators : List (Operator T)) (id : Nat) : Node → Option (Event Unit)
  | .value v => some (.leaf id v.text)
  | .group _ => some (.group id)
  | .operator o =>
    match operators[o.operator]? with
    | none => none
    | some ⟨token, .unary _⟩ => some (.unary id token ())
    | some ⟨token, .binary _⟩ => some (.binary id token () ())

theorem Node.id_of_event? {operators : List (Operator T)} {id : Nat} {node : Node} {event : Event Unit}
    (h : node.event? operators id = some event) : event.id = id := by
  cases node with
  | value v =>
    cases h
    rfl
  | group g =>
    cases h
    rfl
  | operator o =>
    rw [event?] at h
    split at h <;> cases h <;> rfl

/-- The events that happen to nodes, the first of which has the number `first`, in the order of the nodes. -/
def Node.events (operators : List (Operator T)) (first : Nat) (nodes : List Node) : List (Event Unit) :=
  (nodes.zipIdx first).filterMap fun (node, id) => node.event? operators id

namespace Node

variable {operators : List (Operator T)} {first : Nat}

theorem events_cons (node : Node) (nodes : List Node) :
    events operators first (node :: nodes) =
      (node.event? operators first).toList ++ events operators (first + 1) nodes := by
  rw [events, List.zipIdx_cons, List.filterMap_cons, events]
  dsimp only
  cases node.event? operators first <;> rfl

theorem events_append (nodes nodes' : List Node) :
    events operators first (nodes ++ nodes') =
      events operators first nodes ++ events operators (first + nodes.length) nodes' := by
  rw [events, List.zipIdx_append, List.filterMap_append]
  rfl

theorem mem_events_iff {nodes : List Node} {event : Event Unit} :
    event ∈ events operators first nodes ↔
      ∃ k, ∃ node : Node, nodes[k]? = some node ∧ node.event? operators (first + k) = some event := by
  rw [events, List.mem_filterMap]
  constructor
  · rintro ⟨⟨node, id⟩, hmem, hevent⟩
    obtain ⟨hle, hnode⟩ := List.mk_mem_zipIdx_iff_le_and_getElem?_sub.mp hmem
    refine ⟨id - first, node, hnode, ?_⟩
    rwa [Nat.add_sub_cancel' hle]
  · rintro ⟨k, node, hnode, hevent⟩
    refine ⟨(node, first + k), ?_, hevent⟩
    rw [List.mk_mem_zipIdx_iff_le_and_getElem?_sub, Nat.add_sub_cancel_left]
    exact ⟨Nat.le_add_right _ _, hnode⟩

theorem pairwise_id_events (nodes : List Node) : (events operators first nodes).Pairwise (·.id < ·.id) := by
  induction nodes generalizing first with
  | nil => exact .nil
  | cons node nodes ih =>
    rw [events_cons]
    cases hevent : node.event? operators first with
    | none => exact ih
    | some event =>
      refine .cons ?_ ih
      intro later hlater
      obtain ⟨k, _, _, hk⟩ := mem_events_iff.mp hlater
      rw [id_of_event? hevent, id_of_event? hk]
      omega

end Node

/-- The items of siblings perform the events of the nodes in them, whose numbers are those that the siblings
have. -/
theorem Forest.allPerform_items (m : Meaning T) (f : Forest) (parent first : Nat) :
    Item.AllPerform (Node.events m.operators first (f.nodes parent first)) (f.items m first) := by
  induction f generalizing parent first with
  | nil => exact .nil
  | value v rest ih =>
    rw [nodes, items, Node.events_cons]
    refine .cons (.operand ?_) (ih _ _)
    exact (Run.performs_tell (.leaf first v.text)).bind fun _ => Run.performs_pure _
  | operator o rest ih =>
    rw [nodes, items, Node.events_cons]
    refine .cons ?_ (ih _ _)
    rw [Node.event?, OperatorUse.item]
    rcases m.operators[o.operator]? with _ | ⟨token, apply | apply⟩
    · exact .operand (Run.performs_fail _ _)
    · exact .unary ⟨first, o.span.start, token, apply⟩
    · exact .binary ⟨first, o.span.start, token, apply⟩
  | group e content rest ihc ihr =>
    rw [nodes_group, items, Node.events_cons, Node.events_append, length_nodes, ← List.append_assoc]
    exact .cons (.operand (e.performs_reduce _ _ (ihc _ _))) (ihr _ _)

/-- Evaluating an expression performs the events of all nodes but the root. -/
theorem Expression.performs_run (e : Expression T) (leaf : String → T) :
    (e.run leaf).Performs (Node.events e.operators (rootId + 1) e.nodes.tail) := by
  have hitems := e.content.allPerform_items ⟨e.operators, leaf, e.associativity⟩ rootId (rootId + 1)
  have hfold := (hitems.foldFrom_and_fold e.associativity).2
  rw [run, ← List.append_nil (Node.events _ _ _)]
  exact (hfold.orAt 0).bind fun _ => Run.performs_pure _

end Bracketed
