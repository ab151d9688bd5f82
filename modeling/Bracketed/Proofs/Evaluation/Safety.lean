import Bracketed.Proofs.Arena
import Bracketed.Proofs.Evaluation.Depth
import Bracketed.Proofs.Evaluation.Folding
import Bracketed.Proofs.Scan.Parse

namespace Bracketed

variable {T : Type}

/-- An outcome that was reached without asking a table for an index that it does not have, and without taking an
operand that had no value yet. -/
structure Reducing.IsSafe {α : Type} (outcome : Except Halt α) : Prop where
  inside : ∀ table index, outcome ≠ .error (.outside table index)
  rooted : outcome ≠ .error .noRoot
  resolved : ∀ position, outcome ≠ .error (.failed (.invalidOperand .unresolvedOperand position))

/-- What a reduction that follows a run comes to from the beginning, and what it has consumed then. -/
theorem Reducing.Follows.exists_outcome {α β : Type} {m : Reducing T α} {r : Run T β} {order : List Nat}
    {view : α → β} (h : m.Follows r order fun b a left => view a = b ∧ left = []) :
    ∃ outcome trace, m.outcome {} = some (outcome, trace) ∧ IsSafe outcome ∧
      outcome.map view = r.result.mapError .failed ∧ trace.events = r.events ∧ trace.consumed <+: order ∧
      ∀ a, outcome = .ok a → trace.consumed = order := by
  cases h with
  | @ok b a taken left hr hm horder hpost =>
    obtain ⟨rfl, rfl⟩ := hpost
    rw [List.append_nil] at horder
    subst horder
    refine ⟨_, _, hm {}, ⟨by simp, by simp, by simp⟩, ?_, List.nil_append _, List.prefix_refl _, fun _ _ => rfl⟩
    rw [hr]
    rfl
  | @error e taken hr hm horder he =>
    refine ⟨_, _, hm {}, ⟨by simp, by simp, ?_⟩, ?_, List.nil_append _, horder, by simp⟩
    · rintro position ⟨⟩
      exact he position rfl
    · rw [hr]
      rfl

/-- Reduces a root to what its content reduces to. -/
def GroupNode.reduceRoot (g : GroupNode) (a : Associativity) (content : List (Item T)) : Run T (Resolved T) := do
  let x ← (Item.fold a content).orAt 0
  return ⟨x.value, x.consumed + g.delimiterLength + g.padding⟩

namespace Reducer

/-- The tree is reduced to this, and this has been done then. Its calls may nest as deep as is ample or any
deeper, which makes no difference. -/
def ComesTo (r : Reducer T) (outcome : Except Halt (Placed T)) (trace : Trace T) : Prop :=
  ∀ depth, r.ampleDepth ≤ depth → (r.reduce depth).outcome {} = some (outcome, trace)

variable {r : Reducer T} {g : GroupNode} {items : List (Item T)} {order : List Nat}

/-- Reducing the root comes to what the fold of its children comes to. -/
theorem Unfolds.follows_reduce (hroot : r.nodes[0]? = some (.group g)) (h : r.Unfolds g.children items order)
    {depth : Nat} (hdepth : 5 * (order.length + 1) ≤ depth) :
    (r.reduce depth).Follows (g.reduceRoot r.associativity items) order
      fun y x left => x.toResolved = y ∧ left = [] := by
  obtain ⟨depth, rfl⟩ : ∃ d, depth = d + 2 := ⟨depth - 2, by omega⟩
  have hgroup : r.root = pure g := by
    rw [root, List.head?_eq_getElem?, hroot]
  let finish (x : Resolved T) : Run T (Resolved T) :=
    pure ⟨x.value, x.consumed + g.delimiterLength + g.padding⟩
  have hrun : (Item.fold r.associativity items >>= finish).orAt 0 = g.reduceRoot r.associativity items :=
    Run.orAt_bind _ _ 0
  rw [reduce, hgroup, pure_bind, reduceGroup_eq, ← hrun]
  refine ((h.folds.2 (depth + 1) (by omega)).bind ?_).orAt 0
  rintro x y left ⟨rfl, rfl⟩
  exact Reducing.follows_pure ⟨rfl, rfl⟩

theorem Unfolds.exists_comesTo (hroot : r.nodes[0]? = some (.group g)) (h : r.Unfolds g.children items order)
    (hlength : order.length < r.nodes.length) :
    ∃ outcome trace, r.ComesTo outcome trace ∧ Reducing.IsSafe outcome ∧
      outcome.map Placed.toResolved = (g.reduceRoot r.associativity items).result.mapError .failed ∧
      trace.events = (g.reduceRoot r.associativity items).events ∧ trace.consumed <+: order ∧
      ∀ x, outcome = .ok x → trace.consumed = order := by
  have hdepth : 5 * (order.length + 1) ≤ r.ampleDepth := Nat.mul_le_mul_left 5 hlength
  obtain ⟨outcome, trace, houtcome, hrest⟩ := (h.follows_reduce hroot hdepth).exists_outcome
  exact ⟨outcome, trace, fun depth hle => outcome_reduce_of_le houtcome hle, hrest⟩

end Reducer

/-- A forest's nodes unfold to its items, in the order of their numbers. -/
theorem Forest.StandsIn.unfolds {r : Reducer T} {v : Vocabulary} (hv : v.operators.length = r.operators.length)
    {f : Forest} {parent first : Nat} (h : f.StandsIn r.nodes parent first) (hf : f.IsRegistered v) :
    r.Unfolds (f.ids first) (f.items r.toMeaning first) (List.range' first f.size) := by
  induction f generalizing parent first with
  | nil => exact .nil
  | value w rest ih =>
    obtain ⟨hnode, hrest⟩ := h.value
    rw [size, Nat.add_comm, List.range'_succ]
    exact .value hnode (ih hrest hf)
  | operator o rest ih =>
    obtain ⟨hnode, hrest⟩ := h.operator
    obtain ⟨hindex, hrestRegistered⟩ := hf
    have hunfolds := ih hrest hrestRegistered
    rw [hv] at hindex
    rw [size, Nat.add_comm, List.range'_succ, items]
    rcases hoperator : r.operators[o.operator] with ⟨token, apply | apply⟩
    · have hfound := (List.getElem?_eq_getElem hindex).trans (congrArg some hoperator)
      rw [OperatorUse.item_of_unary hfound]
      exact .unary hnode hfound hunfolds
    · have hfound := (List.getElem?_eq_getElem hindex).trans (congrArg some hoperator)
      rw [OperatorUse.item_of_binary hfound]
      exact .binary hnode hfound hunfolds
  | group e content rest ihc ihr =>
    obtain ⟨hnode, hcontent, hrest⟩ := h.group
    rw [size, Nat.add_assoc, Nat.add_comm, List.range'_succ, ← List.range'_append_1]
    exact .group hnode (ihc hcontent hf.2.1) (ihr hrest hf.2.2)

/-- Reducing an expression in slots comes to what evaluating it comes to. -/
theorem Expression.exists_comesTo {e : Expression T} {v : Vocabulary}
    (hv : v.operators.length = e.operators.length) (hf : e.content.IsRegistered v) (leaf : String → T) :
    ∃ outcome trace, (e.reducer leaf).ComesTo outcome trace ∧ Reducing.IsSafe outcome ∧
      outcome.map Placed.toResolved = (e.evaluateWith leaf).mapError .failed ∧
      trace.events = (e.run leaf).events := by
  have hunfolds := Forest.StandsIn.unfolds (r := e.reducer leaf) hv e.content_standsIn hf
  have hlength : (List.range' 1 e.content.size).length < e.nodes.length := by
    rw [List.length_range', e.length_nodes]
    exact Nat.lt_succ_self _
  obtain ⟨outcome, trace, hcomes, hsafe, hresult, hevents, _⟩ :=
    Reducer.Unfolds.exists_comesTo (r := e.reducer leaf) (g := e.root) rfl hunfolds hlength
  exact ⟨outcome, trace, hcomes, hsafe, hresult, hevents⟩

namespace Parser

/-- Evaluating a text that parses in slots comes to an end. No node, operator or slot is asked for that is not
there, the root is a group, and nothing is taken for an operand before it has been reduced. The result or error
and the events on the way are those of the evaluation. -/
theorem parse_reduces_safely {p : Parser T} {source : String} {e : Expression T} (h : p.parse source = .ok e)
    (leaf : String → T) :
    ∃ outcome trace, (e.reducer leaf).ComesTo outcome trace ∧ Reducing.IsSafe outcome ∧
      outcome.map Placed.toResolved = (e.evaluateWith leaf).mapError .failed ∧
      trace.events = (e.run leaf).events := by
  obtain ⟨_, hscans, _, hoperators, _⟩ := parse_spec h
  have hlength : p.vocabulary.operators.length = e.operators.length := by
    rw [hoperators]
    exact List.length_map _
  exact Expression.exists_comesTo hlength hscans.isRegistered leaf

/-- Behind `b` the second text has a group that nothing combines with. -/
theorem parse_reduces_safely_bracketing :
    let content := Forest.value ⟨"a", 2, ⟨0, 1⟩⟩ <| .operator ⟨1, ⟨2, 3⟩⟩ <| .value ⟨"b", 3, ⟨4, 5⟩⟩ <|
      .group ⟨⟨"(", ")"⟩, ⟨6, 9⟩, 0⟩ (.value ⟨"c", 1, ⟨7, 8⟩⟩ .nil) .nil
    let stray := { bracketed with source := "a - b (c)", content, padding := 0 }
    (bracketing.parse "a - b - (~c)" = .ok bracketed ∧
      ∃ x trace, (bracketed.reducer id).ComesTo (.ok x) trace ∧
        x.toResolved = ⟨"[[a-b]-~c]", 12⟩ ∧ trace.events = (bracketed.run id).events) ∧
    bracketing.parse "a - b (c)" = .ok stray ∧
      ∃ trace, (stray.reducer id).ComesTo (.error (.failed (.missingOperator (some 6)))) trace ∧
        trace.events = (stray.run id).events := by
  intro content stray
  refine ⟨⟨parse_bracketing, ?_⟩, ?_⟩
  · obtain ⟨outcome, trace, hcomes, _, hresult, hevents⟩ := parse_reduces_safely parse_bracketing id
    rw [evaluateWith_bracketed] at hresult
    cases outcome with
    | error halt => cases hresult
    | ok x => exact ⟨x, trace, hcomes, Except.ok.inj hresult, hevents⟩
  · have hparse : bracketing.parse "a - b (c)" = .ok stray := by with_unfolding_all rfl
    have heval : stray.evaluateWith id = .error (.missingOperator (some 6)) := by with_unfolding_all rfl
    obtain ⟨outcome, trace, hcomes, _, hresult, hevents⟩ := parse_reduces_safely hparse id
    rw [heval] at hresult
    cases outcome with
    | error halt =>
      cases hresult
      exact ⟨hparse, trace, hcomes, hevents⟩
    | ok x => cases hresult

end Parser

end Bracketed
