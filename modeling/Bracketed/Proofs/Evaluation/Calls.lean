import Bracketed.Proofs.Evaluation.Events
import Bracketed.Proofs.Evaluation.Outcome
import Bracketed.Proofs.Scan.Preorder

namespace Bracketed

variable {T : Type}

private theorem filter_eq_singleton_of_nodup {α : Type} {f : α → Nat} {l : List α} {a : α} (h : (l.map f).Nodup)
    (ha : a ∈ l) : l.filter (f · == f a) = [a] := by
  induction l with
  | nil => cases ha
  | cons b l ih =>
    rw [List.map_cons, List.nodup_cons] at h
    obtain ⟨hb, hl⟩ := h
    rcases List.mem_cons.mp ha with rfl | ha
    · rw [List.filter_cons, if_pos (beq_self_eq_true (f a)), List.filter_eq_nil_iff.mpr]
      intro c hc heq
      exact hb (List.mem_map.mpr ⟨c, hc, eq_of_beq heq⟩)
    · rw [List.filter_cons_of_neg, ih hl ha]
      intro heq
      exact hb (List.mem_map.mpr ⟨a, ha, (eq_of_beq heq).symm⟩)

namespace Term

/-- All trees in a tree, itself included, each of them behind those in its operands, the left one's first. -/
def postorder : Term T → List (Term T)
  | leaf id v => [leaf id v]
  | group id e content => content.postorder ++ [group id e content]
  | unary u x => x.postorder ++ [unary u x]
  | binary b x y => x.postorder ++ y.postorder ++ [binary b x y]

/-- What happens at the root of a tree once its operands have got their values. -/
def event (meaning : String → T) : Term T → Event T
  | leaf id v => .leaf id v.text
  | group id _ _ => .group id
  | unary u x => .unary u.id u.token (x.value meaning)
  | binary b x y => .binary b.id b.token (x.value meaning) (y.value meaning)

theorem events_run (meaning : String → T) (t : Term T) :
    (t.run meaning).events = t.postorder.map (event meaning) := by
  induction t with
  | leaf id v => rfl
  | group id e content ih =>
    rw [run, Run.events_bind_of_ok (content.result_run meaning), ih, postorder, List.map_append]
    rfl
  | unary u x ih =>
    rw [run, Run.events_bind_of_ok (x.result_run meaning), ih, postorder, List.map_append]
    rfl
  | binary b x y ihx ihy =>
    rw [run, Run.events_bind_of_ok (x.result_run meaning), Run.events_bind_of_ok (y.result_run meaning), ihx, ihy,
      postorder, List.map_append, List.map_append, List.append_assoc]
    rfl

end Term

/-- Whether an event is the call of one of the caller's functions. -/
def Event.isCall : Event T → Bool
  | group _ => false
  | _ => true

@[simp] theorem Event.isCall_bare (event : Event T) : event.bare.isCall = event.isCall := by
  cases event <;> rfl

theorem Event.filterMap_leaf?_filter_isCall (events : List (Event T)) :
    (events.filter isCall).filterMap leaf? = events.filterMap leaf? := by
  rw [List.filterMap_filter]
  refine List.filterMap_congr ?_
  intro event _
  cases event <;> rfl

/-- The calls that evaluating a tree takes, in the order of its nodes in which operands come first. -/
def Term.calls (meaning : String → T) (t : Term T) : List (Event T) :=
  (t.postorder.map (event meaning)).filter Event.isCall

namespace Expression

/-- The calls of the caller's functions that an evaluation makes, whether or not it succeeds. -/
def calls (e : Expression T) (leaf : String → T) : List (Event T) :=
  (e.run leaf).events.filter Event.isCall

/-- The number and the text of each value, in source order, which is that of the numbers. -/
def values (e : Expression T) : List (Nat × String) :=
  e.nodes.zipIdx.filterMap fun (node, id) => node.value?.map fun v => (id, v.text)

/-- Every call is that of a node's own function, no node's function is called twice, and the leaf function is
called for values one after another from the first one of the source on. -/
structure CallsInOrder (e : Expression T) (leaf : String → T) : Prop where
  own : ∀ call ∈ e.calls leaf, ∃ node, e.nodes[call.id]? = some node ∧
    node.event? e.operators call.id = some call.bare
  nodup : ((e.calls leaf).map Event.id).Nodup
  values : (e.calls leaf).filterMap Event.leaf? <+: e.values

/-- There is exactly one call for each value, which is that of the leaf function with the value's text, and
exactly one for each operator, which is that of the operator's own function. The leaf function is called for
values in source order. -/
structure CallsAll (e : Expression T) (leaf : String → T) : Prop where
  once : ∀ id node, e.nodes[id]? = some node → node.group? = none →
    ∃ call, (e.calls leaf).filter (·.id == id) = [call] ∧ node.event? e.operators id = some call.bare
  values : (e.calls leaf).filterMap Event.leaf? = e.values

theorem filterMap_leaf?_events (e : Expression T) :
    (Node.events e.operators (rootId + 1) e.nodes.tail).filterMap Event.leaf? = e.values := by
  rw [Node.events, List.filterMap_filterMap, values]
  refine List.filterMap_congr ?_
  rintro ⟨node, id⟩ _
  cases node with
  | group g => rfl
  | value v => rfl
  | operator o =>
    dsimp only [Node.event?]
    rcases e.operators[o.operator]? with _ | ⟨token, apply | apply⟩ <;> rfl

theorem mem_events_iff {e : Expression T} {event : Event Unit} :
    event ∈ Node.events e.operators (rootId + 1) e.nodes.tail ↔ 0 < event.id ∧
      ∃ node, e.nodes[event.id]? = some node ∧ node.event? e.operators event.id = some event := by
  rw [Node.mem_events_iff]
  constructor
  · rintro ⟨k, node, hnode, hevent⟩
    rw [Node.id_of_event? hevent]
    rw [List.getElem?_tail] at hnode
    rw [Nat.add_comm (rootId + 1)] at hevent ⊢
    exact ⟨Nat.succ_pos k, node, hnode, hevent⟩
  · rintro ⟨hpos, node, hnode, hevent⟩
    obtain ⟨k, hk⟩ := Nat.exists_eq_add_of_lt hpos
    rw [Nat.zero_add] at hk
    rw [hk] at hnode hevent
    refine ⟨k, node, ?_, ?_⟩
    · rwa [List.getElem?_tail]
    · rwa [Nat.add_comm (rootId + 1)]

theorem nodup_id_events (e : Expression T) (leaf : String → T) : ((e.run leaf).events.map Event.id).Nodup := by
  obtain ⟨found, hperm, hsublist⟩ := (e.performs_run leaf).subperm
  have hfound : (found.map Event.id).Nodup :=
    List.pairwise_map.mpr (((Node.pairwise_id_events _).sublist hsublist).imp Nat.ne_of_lt)
  have hbare : ((e.run leaf).events.map Event.bare).map Event.id = (e.run leaf).events.map Event.id := by
    rw [List.map_map]
    exact List.map_congr_left fun event _ => event.id_bare
  rw [← hbare]
  exact (hperm.map Event.id).nodup hfound

theorem callsInOrder (e : Expression T) (leaf : String → T) : e.CallsInOrder leaf where
  own := by
    intro call hcall
    have hmem := (e.performs_run leaf).subperm.subset
      (List.mem_map_of_mem (List.mem_of_mem_filter hcall))
    have hnode := (mem_events_iff.mp hmem).2
    rwa [Event.id_bare] at hnode
  nodup := (e.nodup_id_events leaf).sublist (List.filter_sublist.map Event.id)
  values := by
    rw [calls, Event.filterMap_leaf?_filter_isCall, ← filterMap_leaf?_events]
    exact (e.performs_run leaf).leaves_isPrefix

/-- An evaluation that succeeds makes all calls that the expression has nodes for. -/
theorem callsAll_of_ok {e : Expression T} {leaf : String → T} {r : Resolved T} (h : e.evaluateWith leaf = .ok r)
    (hoperators : ∀ o, .operator o ∈ e.nodes → o.operator < e.operators.length) : e.CallsAll leaf := by
  obtain ⟨hevents, hleaves⟩ := (e.performs_run leaf).of_ok h
  refine ⟨?_, ?_⟩
  · intro id node hnode hgroup
    obtain ⟨event, hevent, hcall⟩ : ∃ event, node.event? e.operators id = some event ∧ event.isCall := by
      cases node with
      | group g => cases hgroup
      | value v => exact ⟨_, rfl, rfl⟩
      | operator o =>
        have hindex := hoperators o (List.mem_of_getElem? hnode)
        rw [Node.event?, List.getElem?_eq_getElem hindex]
        rcases e.operators[o.operator] with ⟨token, apply | apply⟩
        · exact ⟨_, rfl, rfl⟩
        · exact ⟨_, rfl, rfl⟩
    have hid := Node.id_of_event? hevent
    subst hid
    have hpos : 0 < event.id := by
      refine Nat.pos_of_ne_zero ?_
      intro hzero
      rw [hzero, nodes] at hnode
      cases hnode
      cases hgroup
    have hmem := hevents.mem_iff.mpr (mem_events_iff.mpr ⟨hpos, node, hnode, hevent⟩)
    obtain ⟨call, hhappens, rfl⟩ := List.mem_map.mp hmem
    rw [Event.id_bare] at hevent ⊢
    rw [Event.isCall_bare] at hcall
    have hcalled : call ∈ e.calls leaf := List.mem_filter.mpr ⟨hhappens, hcall⟩
    exact ⟨call, filter_eq_singleton_of_nodup (e.callsInOrder leaf).nodup hcalled, hevent⟩
  · rw [calls, Event.filterMap_leaf?_filter_isCall, ← filterMap_leaf?_events, hleaves]

theorem calls_of_reads {e : Expression T} {x : Term T} {tail : List (BinaryUse T × Term T)}
    (h : e.content.Reads e.operators e.associativity 1 x tail) (leaf : String → T) :
    e.calls leaf = (Term.nest e.associativity x tail).calls leaf := by
  rw [calls, run_of_reads h, Run.events_bind_of_ok (Term.result_run leaf _), Run.events_pure, List.append_nil,
    Term.events_run, Term.calls]

end Expression

namespace Parser

/-- Evaluating a text that parses calls no node's function twice, and the leaf function for the values in
source order. If it succeeds, the calls are those of the tree in which every group's operands are nested the
way the parser's associativity says, in post-order, with one call for every value and operator. -/
theorem calls_eq_postorder {p : Parser T} {source : String} {e : Expression T} (h : p.parse source = .ok e)
    (leaf : String → T) :
    e.CallsInOrder leaf ∧
      ∀ r, e.evaluateWith leaf = .ok r → e.CallsAll leaf ∧
        (∃ x tail, e.content.Reads p.operators p.associativity 1 x tail) ∧
        ∀ x tail, e.content.Reads p.operators p.associativity 1 x tail →
          e.calls leaf = (Term.nest p.associativity x tail).calls leaf := by
  obtain ⟨_, _, _, hoperators, hassociativity⟩ := parse_spec h
  rw [← hoperators, ← hassociativity]
  refine ⟨e.callsInOrder leaf, ?_⟩
  intro r hr
  refine ⟨Expression.callsAll_of_ok hr fun o ho => operator_lt_of_parse h ho,
    Expression.exists_reads_of_evaluateWith hr, ?_⟩
  intro x tail hreads
  exact Expression.calls_of_reads hreads leaf

/-- Behind `b` the second text has a group that nothing combines with, which is noticed only once it has been
evaluated. -/
theorem calls_eq_postorder_bracketing :
    let content := Forest.value ⟨"a", 2, ⟨0, 1⟩⟩ <| .operator ⟨1, ⟨2, 3⟩⟩ <| .value ⟨"b", 3, ⟨4, 5⟩⟩ <|
      .group ⟨⟨"(", ")"⟩, ⟨6, 9⟩, 0⟩ (.value ⟨"c", 1, ⟨7, 8⟩⟩ .nil) .nil
    let stray := { bracketed with source := "a - b (c)", content, padding := 0 }
    (bracketing.parse "a - b - (~c)" = .ok bracketed ∧
      bracketed.evaluateWith id = .ok ⟨"[[a-b]-~c]", 12⟩ ∧
      bracketed.calls id = [.leaf 1 "a", .leaf 3 "b", .binary 2 "-" "a" "b", .leaf 7 "c", .unary 6 "~" "c",
        .binary 4 "-" "[a-b]" "~c"] ∧
      bracketed.CallsInOrder id ∧ bracketed.CallsAll id ∧
      ∀ x tail, bracketed.content.Reads bracketing.operators .left 1 x tail →
        bracketed.calls id = (Term.nest .left x tail).calls id) ∧
    bracketing.parse "a - b (c)" = .ok stray ∧
      stray.evaluateWith id = .error (.missingOperator (some 6)) ∧
      stray.calls id = [.leaf 1 "a", .leaf 3 "b", .binary 2 "-" "a" "b", .leaf 5 "c"] ∧ stray.CallsInOrder id := by
  intro content stray
  obtain ⟨horder, hok⟩ := calls_eq_postorder parse_bracketing id
  obtain ⟨hall, _, hpostorder⟩ := hok _ evaluateWith_bracketed
  have hstray : bracketing.parse "a - b (c)" = .ok stray := by with_unfolding_all rfl
  refine ⟨⟨parse_bracketing, evaluateWith_bracketed, ?_, horder, hall, hpostorder⟩, hstray, ?_, ?_, (calls_eq_postorder hstray id).1⟩
  · with_unfolding_all rfl
  · with_unfolding_all rfl
  · with_unfolding_all rfl

end Parser

end Bracketed
