import Bracketed.Evaluation.Reduction
import Bracketed.Evaluation.Slot

namespace Bracketed

/-- What a reduction reads and leaves as it is: the nodes of a tree by their numbers, and what gives them
their meaning. -/
structure Reducer (T : Type) extends Meaning T where
  nodes : List Node

namespace Reducer

variable {T : Type} (r : Reducer T)

def node (id : Nat) : Reducing T Node :=
  Reducing.lookUp .nodes r.nodes id

/-- The registered operator that an occurrence refers to. -/
def operator (o : OperatorUse) : Reducing T (Operator T) :=
  Reducing.lookUp .operators r.operators o.operator

def root : Reducing T GroupNode :=
  match r.nodes.head? with
  | some (.group g) => return g
  | _ => throw .noRoot

/-- Where what a slot stands for begins in the source. -/
def startOf : Slot T → Reducing T Nat
  | .pending id => return (← r.node id).span.start
  | .resolved x => return x.start

/-! Each of the functions below is given how deep the calls it makes may nest, a turn of the loop over the slots
counting as a call. This only bounds the recursion, which by itself has no end on nodes that contain themselves. -/

mutual

/-- Reduces a group to what its children are reduced to in slots of their own. Delimiters and padding belong
to the group and not to any of its children. -/
def reduceGroup (depth : Nat) (g : GroupNode) : Reducing T (Placed T) :=
  match depth with
  | 0 => Reducing.cutShort
  | depth + 1 => do
    if g.children.isEmpty then
      Reducing.fault .emptyGroup
    else
      let inner ← fold depth (Slot.pendings g.children)
      return ⟨⟨inner.value, inner.consumed + g.delimiterLength + g.padding⟩, g.span.start⟩
termination_by structural depth

/-- Reduces slots until one is left, and takes what has been reduced there. -/
def fold (depth : Nat) (slots : List (Slot T)) : Reducing T (Placed T) :=
  match depth with
  | 0 => Reducing.cutShort
  | depth + 1 => do
    if slots.isEmpty then
      Reducing.fault .emptyGroup
    else
      let slots ← foldFrom depth slots 0
      let (x, _) ← Slot.takeResolved slots 0
      return x
termination_by structural depth

/-- Consumes the slot at `cursor` and goes on from there. An error without a position is given that of this
slot. -/
def foldFrom (depth : Nat) (slots : List (Slot T)) (cursor : Nat) : Reducing T (List (Slot T)) :=
  match depth with
  | 0 => Reducing.cutShort
  | depth + 1 => do
    let failureAt ← r.startOf (← Slot.read slots cursor)
    let (place, slots) ← (consume depth slots cursor).orAt failureAt
    foldOn depth slots place
termination_by structural depth

/-- Goes on behind `place`, where the slot consumed last has been reduced. Anything to the left of that is an
operand that nothing will combine with. -/
def foldOn (depth : Nat) (slots : List (Slot T)) (place : Nat) : Reducing T (List (Slot T)) :=
  match depth with
  | 0 => Reducing.cutShort
  | depth + 1 => do
    if place ≠ 0 then
      let start ← r.startOf (← Slot.read slots place)
      Reducing.fail (.missingOperator (some start))
    else if slots.length = 1 then
      return slots
    else
      foldFrom depth slots (place + 1)
termination_by structural depth

/-- Consumes the slot at `i`. What it is reduced to stands at the place that is returned with the slots. -/
def consume (depth : Nat) (slots : List (Slot T)) (i : Nat) : Reducing T (Nat × List (Slot T)) :=
  match depth with
  | 0 => Reducing.cutShort
  | depth + 1 => do
    match ← Slot.read slots i with
    | .resolved _ => return (i, slots)
    | .pending id =>
      Reducing.note id
      match ← r.node id with
      | .value v =>
        let x ← Reducing.ofRun (v.reduce r.leaf id)
        let slots ← Slot.write slots i (.resolved ⟨x, v.span.start⟩)
        return (i, slots)
      | .group g =>
        let x ← reduceGroup depth g
        Reducing.ofRun (Run.tell (.group id))
        let slots ← Slot.write slots i (.resolved x)
        return (i, slots)
      | .operator o =>
        let operator ← r.operator o
        match operator.combine with
        | .unary apply => consumeUnary depth slots i ⟨id, o.span.start, operator.token, apply⟩
        | .binary apply => consumeBinary depth slots i ⟨id, o.span.start, operator.token, apply⟩
termination_by structural depth

/-- Applies the unary operator at `i` to what the slot behind it is reduced to, and puts the result in its
place. -/
def consumeUnary (depth : Nat) (slots : List (Slot T)) (i : Nat) (u : UnaryUse T) :
    Reducing T (Nat × List (Slot T)) :=
  match depth with
  | 0 => Reducing.cutShort
  | depth + 1 => do
    if slots.length ≤ i + 1 then
      Reducing.fault .missingRight
    else
      let (place, slots) ← consume depth slots (i + 1)
      let (operand, slots) ← Slot.takeResolved slots place
      let x ← Reducing.ofRun (u.combine operand.toResolved)
      let slots ← Slot.write slots i (.resolved ⟨x, u.start⟩)
      return (i, slots)
termination_by structural depth

/-- Applies the binary operator at `i` to what has been reduced before it and to its right operand, and puts the
result in place of both. -/
def consumeBinary (depth : Nat) (slots : List (Slot T)) (i : Nat) (b : BinaryUse T) :
    Reducing T (Nat × List (Slot T)) :=
  match depth with
  | 0 => Reducing.cutShort
  | depth + 1 => do
    if i = 0 then
      Reducing.fault .missingLeft
    else
      match ← Slot.read slots (i - 1) with
      | .pending _ => Reducing.fault .unresolvedLeft
      | .resolved _ =>
        if slots.length ≤ i + 1 then
          Reducing.fault .missingRight
        else
          let (right, slots) ← rightOperand depth slots i
          let (_, slots) ← Slot.remove slots i
          let (left, slots) ← Slot.takeResolved slots (i - 1)
          let x ← Reducing.ofRun (b.combine left.toResolved right.toResolved)
          let slots ← Slot.insert slots (i - 1) (.resolved ⟨x, left.start⟩)
          return (i - 1, slots)
termination_by structural depth

/-- Takes the right operand of the binary operator at `i` out of the slots: to the left what the next slot is
reduced to, to the right what all slots behind the operator are. -/
def rightOperand (depth : Nat) (slots : List (Slot T)) (i : Nat) : Reducing T (Placed T × List (Slot T)) :=
  match depth with
  | 0 => Reducing.cutShort
  | depth + 1 => do
    match r.associativity with
    | .left =>
      let (place, slots) ← consume depth slots (i + 1)
      Slot.takeResolved slots place
    | .right =>
      let (slots, tail) ← Slot.splitOff slots (i + 1)
      let x ← fold depth tail
      return (x, slots)
termination_by structural depth

end

/-- Reduces the tree to what its root is reduced to. -/
def reduce (depth : Nat) : Reducing T (Placed T) :=
  Reducing.orAt (do r.reduceGroup depth (← r.root)) 0

/-- A depth that is ample for every tree: calls nest at most five deep until one more of its nodes is consumed. -/
def ampleDepth : Nat :=
  5 * r.nodes.length

end Reducer

namespace Expression

variable {T : Type}

/-- What reduces the expression with `leaf` giving values their meaning. -/
def reducer (e : Expression T) (leaf : String → T) : Reducer T :=
  { operators := e.operators, leaf, associativity := e.associativity, nodes := e.nodes }

end Expression

end Bracketed
