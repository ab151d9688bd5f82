import Bracketed.Evaluation.Run

namespace Bracketed.Run

variable {T : Type} {α β : Type}

attribute [ext] Run

/-- Runs may be regrouped: what a run tells does not depend on where its parts are split. -/
instance : LawfulMonad (Run T) := LawfulMonad.mk' (Run T)
  (by
    intro α r
    rcases r with ⟨events, e | a⟩
    · rfl
    · exact Run.ext (List.append_nil events) rfl)
  (by
    intro α β a next
    exact Run.ext (List.nil_append _) rfl)
  (by
    intro α β γ r next last
    rcases r with ⟨events, e | a⟩
    · rfl
    · change Run.bind (Run.bind _ next) last = Run.bind _ fun x => Run.bind (next x) last
      cases h : (next a).result with
      | error e => simp [Run.bind, h]
      | ok b => simp [Run.bind, h])

theorem fault_bind (f : OperandFault) (next : α → Run T β) : (fault f >>= next) = fault f := rfl

/-- A run that goes on succeeds exactly if its first part does and what comes after it does too. -/
theorem bind_eq_ok_iff {r : Run T α} {next : α → Run T β} {b : β} :
    (r >>= next).result = .ok b ↔ ∃ a, r.result = .ok a ∧ (next a).result = .ok b := by
  rw [result_bind]
  cases h : r.result with
  | error e => simp [Bind.bind, Except.bind]
  | ok a => simp [Bind.bind, Except.bind]

/-- A run that goes on fails in its first part or in what comes after it. -/
theorem bind_eq_error_iff {r : Run T α} {next : α → Run T β} {e : EvalError} :
    (r >>= next).result = .error e ↔
      r.result = .error e ∨ ∃ a, r.result = .ok a ∧ (next a).result = .error e := by
  rw [result_bind]
  cases h : r.result with
  | error e => simp [Bind.bind, Except.bind]
  | ok a => simp [Bind.bind, Except.bind]

theorem orAt_eq_ok_iff {r : Run T α} {position : Nat} {a : α} :
    (r.orAt position).result = .ok a ↔ r.result = .ok a := by
  rw [result_orAt]
  cases r.result with
  | error e =>
    constructor
    · intro h
      cases h
    · intro h
      cases h
  | ok b => exact Iff.rfl

theorem orAt_eq_error_iff {r : Run T α} {position : Nat} {e : EvalError} :
    (r.orAt position).result = .error e ↔ ∃ inner, r.result = .error inner ∧ inner.orAt position = e := by
  rw [result_orAt]
  cases r.result with
  | error inner =>
    constructor
    · intro h
      cases h
      exact ⟨inner, rfl, rfl⟩
    · rintro ⟨_, h, rfl⟩
      cases h
      rfl
  | ok a =>
    constructor
    · intro h
      cases h
    · rintro ⟨_, h, _⟩
      cases h

/-- Only errors are given a position. -/
theorem orAt_of_ok {r : Run T α} {a : α} (h : r.result = .ok a) (position : Nat) : r.orAt position = r := by
  apply Run.ext
  · rfl
  · rw [result_orAt, h]
    rfl

theorem orAt_bind (r : Run T α) (next : α → Run T β) (position : Nat) :
    (r >>= next).orAt position = r.orAt position >>= fun a => (next a).orAt position := by
  rcases r with ⟨events, err | a⟩
  · rfl
  · rfl

/-- A position that an error has been given stays. -/
theorem orAt_orAt (r : Run T α) (p q : Nat) : (r.orAt p).orAt q = r.orAt p := by
  rcases r with ⟨events, err | a⟩
  · exact congrArg (fun err => Run.mk events (.error err)) (err.orAt_orAt p q)
  · rfl

end Bracketed.Run
