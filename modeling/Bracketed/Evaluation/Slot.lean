import Bracketed.Evaluation.Item

namespace Bracketed

variable {T α : Type}

/-- What a part of a tree has been reduced to, with the place at which that part begins in the source. -/
structure Placed (T : Type) extends Resolved T where
  start : Nat

/-- One of the places at which a group's children are reduced: a node that waits for its turn, or what has
been reduced there. -/
inductive Slot (T : Type) where
  | pending (id : Nat)
  | resolved (x : Placed T)

/-- The tables in which a reduction looks things up by their index. -/
inductive Table where
  | nodes
  | operators
  | slots
  deriving DecidableEq

/-- Why a reduction comes to an end without a result. -/
inductive Halt where
  /-- A table was asked for an index that it does not have. -/
  | outside (table : Table) (index : Nat)
  /-- The first node is no group. -/
  | noRoot
  /-- The tree cannot be evaluated. -/
  | failed (e : EvalError)
  deriving DecidableEq

/-- Gives an error of the tree a position unless it has one. -/
def Halt.orAt (position : Nat) : Halt → Halt
  | failed e => failed (e.orAt position)
  | halt => halt

/-- What a reduction has done so far, in the order in which it did it: the nodes whose pending slots it
consumed, by their numbers, and the events that it let happen. -/
structure Trace (T : Type) where
  consumed : List Nat := []
  events : List (Event T) := []

/-- A reduction over values of type `T`. It adds to a trace and comes to an end with a result or a halt. One
that was cut short because its calls nested too deep has no outcome at all. -/
abbrev Reducing (T α : Type) :=
  ExceptT Halt (StateT (Trace T) Option) α

namespace Reducing

/-- What the reduction comes to if it begins with `trace`. -/
def outcome (m : Reducing T α) (trace : Trace T) : Option (Except Halt α × Trace T) :=
  m.run.run trace

/-- What is left of a call that would nest too deep. -/
def cutShort : Reducing T α :=
  ExceptT.mk fun _ => none

def fail (e : EvalError) : Reducing T α :=
  throw (.failed e)

/-- Ends with an error whose position is not known here. -/
def fault (f : OperandFault) : Reducing T α :=
  fail (.invalidOperand f none)

/-- Notes that the pending slot of a node is consumed. -/
def note (id : Nat) : Reducing T Unit :=
  modify fun trace => { trace with consumed := trace.consumed ++ [id] }

/-- Does what a run does. -/
def ofRun (r : Run T α) : Reducing T α := do
  modify fun trace => { trace with events := trace.events ++ r.events }
  match r.result with
  | .ok a => return a
  | .error e => fail e

/-- Gives an error that ends the reduction a position unless it has one. -/
def orAt (m : Reducing T α) (position : Nat) : Reducing T α :=
  ExceptT.mk (Except.mapError (Halt.orAt position) <$> m.run)

/-- The entry of a table at an index that the table has to have. -/
def lookUp (table : Table) (entries : List α) (index : Nat) : Reducing T α :=
  match entries[index]? with
  | some entry => return entry
  | none => throw (.outside table index)

end Reducing

namespace Slot

/-- Slots of nodes that all wait for their turn. -/
def pendings (ids : List Nat) : List (Slot T) :=
  ids.map pending

def read (slots : List (Slot T)) (i : Nat) : Reducing T (Slot T) :=
  Reducing.lookUp .slots slots i

/-- Puts `slot` in place of the one at `i`. -/
def write (slots : List (Slot T)) (i : Nat) (slot : Slot T) : Reducing T (List (Slot T)) :=
  if i < slots.length then return slots.set i slot else throw (.outside .slots i)

/-- Takes out the slot at `i`, so that those behind it move up. -/
def remove (slots : List (Slot T)) (i : Nat) : Reducing T (Slot T × List (Slot T)) := do
  return (← read slots i, slots.eraseIdx i)

/-- Puts `slot` before the one at `i`, or behind all if `i` is their number. -/
def insert (slots : List (Slot T)) (i : Nat) (slot : Slot T) : Reducing T (List (Slot T)) :=
  if i ≤ slots.length then return slots.insertIdx i slot else throw (.outside .slots i)

/-- Splits the slots before the one at `i`, or behind all if `i` is their number. -/
def splitOff (slots : List (Slot T)) (i : Nat) : Reducing T (List (Slot T) × List (Slot T)) :=
  if i ≤ slots.length then return (slots.take i, slots.drop i) else throw (.outside .slots i)

/-- Takes out what has been reduced at `i`. -/
def takeResolved (slots : List (Slot T)) (i : Nat) : Reducing T (Placed T × List (Slot T)) := do
  let (slot, slots) ← remove slots i
  match slot with
  | .resolved x => return (x, slots)
  | .pending _ => Reducing.fault .unresolvedOperand

end Slot

end Bracketed
