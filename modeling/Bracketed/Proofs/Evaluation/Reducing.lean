import Bracketed.Evaluation.Slot
import Bracketed.Proofs.Evaluation.RunLaws

namespace Bracketed

variable {T α β γ δ : Type}

/-- The trace once some more nodes have been consumed and some more events have happened. -/
def Trace.extend (trace : Trace T) (taken : List Nat) (events : List (Event T)) : Trace T :=
  ⟨trace.consumed ++ taken, trace.events ++ events⟩

namespace Trace

@[simp] theorem extend_nil (trace : Trace T) : trace.extend [] [] = trace := by
  simp [extend]

@[simp] theorem extend_extend (trace : Trace T) (taken taken' : List Nat) (events events' : List (Event T)) :
    (trace.extend taken events).extend taken' events' = trace.extend (taken ++ taken') (events ++ events') := by
  simp [extend]

end Trace

namespace Reducing

theorem outcome_pure (a : α) (trace : Trace T) : (pure a : Reducing T α).outcome trace = some (.ok a, trace) := rfl

theorem outcome_fail (e : EvalError) (trace : Trace T) :
    (fail e : Reducing T α).outcome trace = some (.error (.failed e), trace) := rfl

theorem outcome_note (id : Nat) (trace : Trace T) :
    (note id).outcome trace = some (.ok (), trace.extend [id] []) := by
  rw [Trace.extend, List.append_nil]
  rfl

theorem outcome_ofRun {r : Run T α} {a : α} (hr : r.result = .ok a) (trace : Trace T) :
    (ofRun r).outcome trace = some (.ok a, trace.extend [] r.events) := by
  rw [ofRun, hr, Trace.extend, List.append_nil]
  rfl

theorem outcome_bind_of_ok {m : Reducing T α} {trace trace' : Trace T} {a : α}
    (h : m.outcome trace = some (.ok a, trace')) (next : α → Reducing T β) :
    (m >>= next).outcome trace = (next a).outcome trace' := by
  change StateT.run m trace = _ at h
  change (StateT.run m trace).bind _ = _
  rw [h]
  rfl

theorem outcome_bind_of_error {m : Reducing T α} {trace trace' : Trace T} {halt : Halt}
    (h : m.outcome trace = some (.error halt, trace')) (next : α → Reducing T β) :
    (m >>= next).outcome trace = some (.error halt, trace') := by
  change StateT.run m trace = _ at h
  change (StateT.run m trace).bind _ = _
  rw [h]
  rfl

theorem outcome_orAt (m : Reducing T α) (position : Nat) (trace : Trace T) :
    (m.orAt position).outcome trace =
      (m.outcome trace).map fun (outcome, trace) => (outcome.mapError (Halt.orAt position), trace) := by
  change (Except.mapError (Halt.orAt position) <$> m.run : StateT (Trace T) Option (Except Halt α)).run trace = _
  rw [StateT.run_map]
  rfl

theorem lookUp_eq_pure {table : Table} {entries : List α} {index : Nat} {entry : α}
    (h : entries[index]? = some entry) : (lookUp table entries index : Reducing T α) = pure entry := by
  rw [lookUp, h]

/-- A reduction comes to what a run comes to, and lets the same events happen, whatever it begins with. While
it goes on it consumes the nodes of `order` one after the other. If it has a result, that is related to the
run's and to the nodes that are left. Otherwise the tree has an error, though not the one that an operand has
no value. -/
inductive Follows (m : Reducing T α) (r : Run T β) (order : List Nat) (post : β → α → List Nat → Prop) : Prop where
  | ok {b : β} {a : α} {taken left : List Nat} (hr : r.result = .ok b)
      (hm : ∀ trace, m.outcome trace = some (.ok a, trace.extend taken r.events)) (horder : order = taken ++ left)
      (hpost : post b a left)
  | error {e : EvalError} {taken : List Nat} (hr : r.result = .error e)
      (hm : ∀ trace, m.outcome trace = some (.error (.failed e), trace.extend taken r.events))
      (horder : taken <+: order) (he : ∀ position, e ≠ .invalidOperand .unresolvedOperand position)

variable {m : Reducing T α} {r : Run T β} {order : List Nat} {post : β → α → List Nat → Prop}

theorem follows_pure {a : α} {b : β} (hpost : post b a order) :
    Follows (pure a : Reducing T α) (pure b) order post := by
  refine .ok rfl ?_ (List.nil_append order).symm hpost
  intro trace
  rw [Run.events_pure, Trace.extend_nil, outcome_pure]

theorem follows_fail {e : EvalError} (he : ∀ position, e ≠ .invalidOperand .unresolvedOperand position) :
    Follows (fail e : Reducing T α) (Run.fail e : Run T β) order post := by
  refine .error rfl ?_ List.nil_prefix he
  intro trace
  rw [Run.events_fail, Trace.extend_nil, outcome_fail]

theorem follows_fault {f : OperandFault} (hf : f ≠ .unresolvedOperand) :
    Follows (fault f : Reducing T α) (Run.fault f : Run T β) order post := by
  refine follows_fail ?_
  rintro position ⟨⟩
  exact hf rfl

namespace Follows

theorem mono {post' : β → α → List Nat → Prop} (h : Follows m r order post)
    (hpost : ∀ b a left, post b a left → post' b a left) : Follows m r order post' := by
  cases h with
  | ok hr hm horder hb => exact .ok hr hm horder (hpost _ _ _ hb)
  | error hr hm horder he => exact .error hr hm horder he

/-- Nodes to be consumed later are left as they are. -/
theorem frame (h : Follows m r order post) (later : List Nat) :
    Follows m r (order ++ later) fun b a left => ∃ own, left = own ++ later ∧ post b a own := by
  cases h with
  | @ok b a taken left hr hm horder hb =>
    refine .ok hr hm ?_ ⟨left, rfl, hb⟩
    rw [horder, List.append_assoc]
  | error hr hm horder he => exact .error hr hm (horder.trans (List.prefix_append order later)) he

theorem bind {k : α → Reducing T γ} {next : β → Run T δ} {post' : δ → γ → List Nat → Prop}
    (h : Follows m r order post) (hnext : ∀ b a left, post b a left → Follows (k a) (next b) left post') :
    Follows (m >>= k) (r >>= next) order post' := by
  cases h with
  | @ok b a taken left hr hm horder hb =>
    have hbind (trace : Trace T) : (m >>= k).outcome trace = (k a).outcome (trace.extend taken r.events) :=
      outcome_bind_of_ok (hm trace) k
    have hevents := Run.events_bind_of_ok hr next
    cases hnext b a left hb with
    | @ok d c taken' left' hr' hm' horder' hd =>
      have houtcome (trace : Trace T) : (m >>= k).outcome trace =
          some (.ok c, trace.extend (taken ++ taken') (r >>= next).events) := by
        rw [hbind, hm', Trace.extend_extend, hevents]
      refine .ok (Run.bind_eq_ok_iff.mpr ⟨b, hr, hr'⟩) houtcome ?_ hd
      rw [horder, horder', List.append_assoc]
    | @error e taken' hr' hm' horder' he =>
      have houtcome (trace : Trace T) : (m >>= k).outcome trace =
          some (.error (.failed e), trace.extend (taken ++ taken') (r >>= next).events) := by
        rw [hbind, hm', Trace.extend_extend, hevents]
      refine .error (Run.bind_eq_error_iff.mpr (.inr ⟨b, hr, hr'⟩)) houtcome ?_ he
      rw [horder]
      exact (List.prefix_append_right_inj taken).mpr horder'
  | error hr hm horder he =>
    refine .error (Run.bind_eq_error_iff.mpr (.inl hr)) ?_ horder he
    intro trace
    rw [outcome_bind_of_error (hm trace), Run.events_bind_of_error hr]

theorem note_bind {id : Nat} {k : Unit → Reducing T α} (h : Follows (k ()) r order post) :
    Follows (note id >>= k) r (id :: order) post := by
  have hbind (trace : Trace T) : (note id >>= k).outcome trace = (k ()).outcome (trace.extend [id] []) :=
    outcome_bind_of_ok (outcome_note id trace) k
  cases h with
  | @ok b a taken left hr hm horder hb =>
    have houtcome (trace : Trace T) : (note id >>= k).outcome trace =
        some (.ok a, trace.extend (id :: taken) r.events) := by
      rw [hbind, hm, Trace.extend_extend]
      rfl
    exact .ok hr houtcome (congrArg (id :: ·) horder) hb
  | @error e taken hr hm horder he =>
    have houtcome (trace : Trace T) : (note id >>= k).outcome trace =
        some (.error (.failed e), trace.extend (id :: taken) r.events) := by
      rw [hbind, hm, Trace.extend_extend]
      rfl
    exact .error hr houtcome ((List.prefix_cons_inj id).mpr horder) he

theorem ofRun_bind {s : Run T γ} {c : γ} (hs : s.result = .ok c) {k : γ → Reducing T α} {next : γ → Run T β}
    (h : Follows (k c) (next c) order post) : Follows (ofRun s >>= k) (s >>= next) order post := by
  have hrun : Follows (ofRun s) s order fun b a left => b = c ∧ a = c ∧ left = order :=
    .ok hs (outcome_ofRun hs) (List.nil_append order).symm ⟨rfl, rfl, rfl⟩
  refine hrun.bind ?_
  rintro _ _ _ ⟨rfl, rfl, rfl⟩
  exact h

theorem orAt (h : Follows m r order post) (position : Nat) :
    Follows (m.orAt position) (r.orAt position) order post := by
  cases h with
  | ok hr hm horder hb =>
    refine .ok (Run.orAt_eq_ok_iff.mpr hr) ?_ horder hb
    intro trace
    rw [outcome_orAt, hm]
    rfl
  | @error e taken hr hm horder he =>
    refine .error (Run.orAt_eq_error_iff.mpr ⟨e, hr, rfl⟩) ?_ horder ?_
    · intro trace
      rw [outcome_orAt, hm]
      rfl
    · intro p hp
      cases e with
      | missingOperator => cases hp
      | invalidOperand fault index =>
        cases hp
        exact he index rfl

end Follows

end Reducing

end Bracketed
