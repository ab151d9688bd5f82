import Bracketed.EvalError

namespace Bracketed

/-- What happens to one node while a tree is evaluated, told by the node's number: the caller's function
that is applied to it, with its arguments, or for a group that its content has been reduced. -/
inductive Event (T : Type) where
  | leaf (id : Nat) (text : String)
  | unary (id : Nat) (token : String) (operand : T)
  | binary (id : Nat) (token : String) (left right : T)
  | group (id : Nat)

/-- The number of the node that an event happens to. -/
def Event.id {T : Type} : Event T → Nat
  | leaf id _ => id
  | unary id _ _ => id
  | binary id _ _ _ => id
  | group id => id

/-- An evaluation over values of type `T`: the events in the order in which they happen, and the result
or the error that ends it. -/
structure Run (T : Type) (α : Type) where
  events : List (Event T)
  result : Except EvalError α

namespace Run

variable {T : Type} {α β : Type}

/-- Ends with an error. -/
def fail (e : EvalError) : Run T α :=
  ⟨[], .error e⟩

/-- Ends with an error whose position is not known here. -/
def fault (f : OperandFault) : Run T α :=
  fail (.invalidOperand f none)

/-- Lets one event happen. -/
def tell (event : Event T) : Run T Unit :=
  ⟨[event], .ok ()⟩

/-- Continues a run unless it ended with an error. -/
def bind (r : Run T α) (next : α → Run T β) : Run T β :=
  match r.result with
  | .error e => ⟨r.events, .error e⟩
  | .ok a => ⟨r.events ++ (next a).events, (next a).result⟩

instance : Monad (Run T) where
  pure a := ⟨[], .ok a⟩
  bind := bind

/-- Gives an error that ends the run a position unless it has one. -/
def orAt (r : Run T α) (position : Nat) : Run T α :=
  { r with result := r.result.mapError (EvalError.orAt position) }

@[simp] theorem events_pure (a : α) : (pure a : Run T α).events = [] := rfl

@[simp] theorem events_fail (e : EvalError) : (fail e : Run T α).events = [] := rfl

/-- The result of a run that goes on is the result of what comes after it. -/
@[simp] theorem result_bind (r : Run T α) (next : α → Run T β) :
    (r >>= next).result = r.result >>= fun a => (next a).result := by
  change (r.bind next).result = _
  rcases r with ⟨events, _ | _⟩ <;> rfl

theorem events_bind_of_ok {r : Run T α} {a : α} (h : r.result = .ok a) (next : α → Run T β) :
    (r >>= next).events = r.events ++ (next a).events := by
  change (r.bind next).events = _
  simp [bind, h]

theorem events_bind_of_error {r : Run T α} {e : EvalError} (h : r.result = .error e)
    (next : α → Run T β) : (r >>= next).events = r.events := by
  change (r.bind next).events = _
  simp [bind, h]

@[simp] theorem result_orAt (r : Run T α) (position : Nat) :
    (r.orAt position).result = r.result.mapError (EvalError.orAt position) := rfl

end Run

end Bracketed
