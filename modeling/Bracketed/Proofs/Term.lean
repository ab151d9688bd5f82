import Bracketed.Evaluation.Reduction
import Mathlib.Algebra.GroupWithZero.Nat

namespace Bracketed

variable {T : Type}

/-- A tree in which every operator stands above its operands. Its nodes carry the numbers that they have
in the flat runs of siblings they were taken from. -/
inductive Term (T : Type) where
  | leaf (id : Nat) (v : Value)
  | group (id : Nat) (e : Enclosure) (content : Term T)
  | unary (u : UnaryUse T) (operand : Term T)
  | binary (b : BinaryUse T) (left right : Term T)

namespace Term

/-- Puts the operands `x₀`, …, `xₘ` into one tree; the binary operators `b₁`, …, `bₘ` between them come
with the operand to their right. To the right this is `b₁ x₀ (b₂ x₁ (… xₘ))`, and to the left
`bₘ (… (b₂ (b₁ x₀ x₁) x₂) …) xₘ`. -/
def nest : Associativity → Term T → List (BinaryUse T × Term T) → Term T
  | _, x, [] => x
  | .right, x, (b, y) :: tail => binary b x (nest .right y tail)
  | .left, x, (b, y) :: tail => nest .left (binary b x y) tail

/-- The value of a tree, from its leaves upwards. -/
def value (leaf : String → T) : Term T → T
  | .leaf _ v => leaf v.text
  | .group _ _ content => content.value leaf
  | .unary u x => u.apply (x.value leaf)
  | .binary b x y => b.apply (x.value leaf) (y.value leaf)

/-- How many characters of the source a tree stands for, with all that is inside its groups. -/
def extent : Term T → Nat
  | .leaf _ v => v.rawLength
  | .group _ e content => content.extent + e.grouping.delimiterLength + e.padding
  | .unary u x => u.token.length + x.extent
  | .binary b x y => x.extent + b.token.length + y.extent

@[simp] theorem nest_nil (a : Associativity) (x : Term T) : nest a x [] = x := by
  cases a <;> rfl

/-- The way operators are nested does not change how many characters they and their operands take. -/
theorem extent_nest (a : Associativity) (x : Term T) (tail : List (BinaryUse T × Term T)) :
    (nest a x tail).extent = x.extent + (tail.map fun p => p.1.token.length + p.2.extent).sum := by
  induction tail generalizing x with
  | nil => simp
  | cons head tail ih =>
    obtain ⟨b, y⟩ := head
    simp only [List.map_cons, List.sum_cons]
    cases a with
    | right =>
      rw [nest, extent, ih]
      omega
    | left =>
      rw [nest, ih, extent]
      omega

end Term

variable (operators : List (Operator T)) (a : Associativity)

mutual

/-- The siblings of a forest, the first of which has the number `first`, are an operand `x` and then
binary operators with an operand behind each, which `tail` lists in source order. An operand is a value or
a group whose content is read in the same way, with any number of unary operators before it; these apply
to nothing but the operand. -/
inductive Forest.Reads : Nat → Forest → Term T → List (BinaryUse T × Term T) → Prop where
  | value {first : Nat} {v : Value} {rest : Forest} {tail : List (BinaryUse T × Term T)}
      (htail : Forest.Continues (first + 1) rest tail) :
      Forest.Reads first (.value v rest) (.leaf first v) tail
  | group {first : Nat} {e : Enclosure} {content rest : Forest} {x : Term T}
      {inner tail : List (BinaryUse T × Term T)} (hcontent : Forest.Reads (first + 1) content x inner)
      (htail : Forest.Continues (first + 1 + content.size) rest tail) :
      Forest.Reads first (.group e content rest) (.group first e (.nest a x inner)) tail
  | unary {first : Nat} {o : OperatorUse} {rest : Forest} {token : String} {apply : T → T} {x : Term T}
      {tail : List (BinaryUse T × Term T)} (hoperator : operators[o.operator]? = some ⟨token, .unary apply⟩)
      (hrest : Forest.Reads (first + 1) rest x tail) :
      Forest.Reads first (.operator o rest) (.unary ⟨first, o.span.start, token, apply⟩ x) tail

/-- What may stand behind an operand: nothing, or a binary operator and then siblings that read as
operands again. -/
inductive Forest.Continues : Nat → Forest → List (BinaryUse T × Term T) → Prop where
  | nil {first : Nat} : Forest.Continues first .nil []
  | binary {first : Nat} {o : OperatorUse} {rest : Forest} {token : String} {apply : T → T → T} {x : Term T}
      {tail : List (BinaryUse T × Term T)} (hoperator : operators[o.operator]? = some ⟨token, .binary apply⟩)
      (hrest : Forest.Reads (first + 1) rest x tail) :
      Forest.Continues first (.operator o rest) ((⟨first, o.span.start, token, apply⟩, x) :: tail)

end

end Bracketed
