import Bracketed.Proofs.Evaluation.Outline
import Bracketed.Proofs.Fault
import Mathlib.Algebra.Group.Nat.Even
import Mathlib.Order.BooleanAlgebra.Basic

namespace Bracketed

/-- The texts of all values, each with the number of unary operators that apply to it. Such an operator stands
directly before the value, before another one that applies to it, or before a group around it. `outer` of them apply
to all siblings, and `run` more stand directly before the first one. -/
def Forest.underUnaries {T : Type} (operators : List (Operator T)) (outer run : Nat) : Forest → List (String × Nat)
  | .nil => []
  | .value v rest => (v.text, outer + run) :: rest.underUnaries operators outer 0
  | .operator o rest => rest.underUnaries operators outer (if o.IsOfKind operators .unary then run + 1 else 0)
  | .group _ content rest =>
    content.underUnaries operators (outer + run) 0 ++ rest.underUnaries operators outer 0

/-- The texts of all values of an expression, each with the number of unary operators that apply to it. -/
def Expression.underUnaries {T : Type} (e : Expression T) : List (String × Nat) :=
  e.content.underUnaries e.operators 0 0

namespace Forest

variable {T : Type} {operators : List (Operator T)}

theorem exists_value_of_mem_underUnaries {f : Forest} {outer run : Nat} {p : String × Nat}
    (h : p ∈ f.underUnaries operators outer run) (parent first : Nat) :
    ∃ v, .value v ∈ f.nodes parent first ∧ v.text = p.1 := by
  induction f generalizing outer run parent first with
  | nil => cases h
  | value v rest ih =>
    rcases List.mem_cons.mp h with rfl | h
    · exact ⟨v, List.mem_cons_self, rfl⟩
    · obtain ⟨w, hw, htext⟩ := ih h parent (first + 1)
      exact ⟨w, List.mem_cons_of_mem _ hw, htext⟩
  | operator o rest ih =>
    obtain ⟨w, hw, htext⟩ := ih h parent (first + 1)
    exact ⟨w, List.mem_cons_of_mem _ hw, htext⟩
  | group e content rest ihc ihr =>
    rcases List.mem_append.mp h with h | h
    · obtain ⟨w, hw, htext⟩ := ihc h first (first + 1)
      exact ⟨w, List.mem_cons_of_mem _ (List.mem_append_left _ hw), htext⟩
    · obtain ⟨w, hw, htext⟩ := ihr h parent (first + 1 + content.size)
      exact ⟨w, List.mem_cons_of_mem _ (List.mem_append_right _ hw), htext⟩

/-- Without unary operators none applies to a value. -/
theorem snd_eq_zero_of_mem_underUnaries {f : Forest} {parent first : Nat}
    (hnone : ∀ o, .operator o ∈ f.nodes parent first → ¬ o.IsOfKind operators .unary) {p : String × Nat}
    (h : p ∈ f.underUnaries operators 0 0) : p.2 = 0 := by
  induction f generalizing parent first with
  | nil => cases h
  | value v rest ih =>
    rcases List.mem_cons.mp h with rfl | h
    · rfl
    · exact ih (fun o ho => hnone o (List.mem_cons_of_mem _ ho)) h
  | operator o rest ih =>
    rw [underUnaries, if_neg (hnone o List.mem_cons_self)] at h
    exact ih (fun o ho => hnone o (List.mem_cons_of_mem _ ho)) h
  | group e content rest ihc ihr =>
    rcases List.mem_append.mp h with h | h
    · exact ihc (fun o ho => hnone o (List.mem_cons_of_mem _ (List.mem_append_left _ ho))) h
    · exact ihr (fun o ho => hnone o (List.mem_cons_of_mem _ (List.mem_append_right _ ho))) h

end Forest

/-- Operators on truth values by which more truth in the operands never means less in the result, but for unary ones,
where it never means more. -/
structure Operator.Polarized (operators : List (Operator Bool)) : Prop where
  unary : ∀ token f, ⟨token, .unary f⟩ ∈ operators → Antitone f
  binary : ∀ token f, ⟨token, .binary f⟩ ∈ operators → ∀ a b c d, a ≤ b → c ≤ d → f a c ≤ f b d

/-- The second truth value follows from the first one; with an odd number of turns, the first one from the second. -/
def Follows (turns : Nat) (a b : Bool) : Prop :=
  if Even turns then a ≤ b else b ≤ a

namespace Follows

variable {n : Nat} {a b c d : Bool}

theorem iff_le_of_even (h : Even n) : Follows n a b ↔ a ≤ b := by
  rw [Follows, if_pos h]

theorem iff_ge_of_not_even (h : ¬ Even n) : Follows n a b ↔ b ≤ a := by
  rw [Follows, if_neg h]

theorem succ_iff : Follows (n + 1) a b ↔ Follows n b a := by
  by_cases h : Even n <;> simp [Follows, Nat.even_add_one, h]

theorem antitone {f : Bool → Bool} (hf : Antitone f) (h : Follows (n + 1) a b) : Follows n (f a) (f b) := by
  rw [succ_iff] at h
  by_cases hn : Even n
  · rw [iff_le_of_even hn] at h ⊢
    exact hf h
  · rw [iff_ge_of_not_even hn] at h ⊢
    exact hf h

theorem map₂ {f : Bool → Bool → Bool} (hf : ∀ a b c d, a ≤ b → c ≤ d → f a c ≤ f b d) (h : Follows n a b)
    (h' : Follows n c d) : Follows n (f a c) (f b d) := by
  by_cases hn : Even n
  · rw [iff_le_of_even hn] at h h' ⊢
    exact hf a b c d h h'
  · rw [iff_ge_of_not_even hn] at h h' ⊢
    exact hf b a d c h h'

end Follows

section

variable {operators : List (Operator Bool)} (hpolarized : Operator.Polarized operators) (a : Associativity)
  {leaf leaf' : String → Bool}
include hpolarized

/-- However operands are nested, what follows for each of them follows for the whole. -/
theorem Term.follows_nest {n : Nat} {x : Term Bool} {tail : List (BinaryUse Bool × Term Bool)}
    (htail : ∀ p ∈ tail, p.1.IsOf operators) (hx : Follows n (x.value leaf) (x.value leaf'))
    (hfollows : ∀ p ∈ tail, Follows n (p.2.value leaf) (p.2.value leaf')) :
    Follows n ((nest a x tail).value leaf) ((nest a x tail).value leaf') := by
  induction tail generalizing x with
  | nil => simpa only [nest_nil] using hx
  | cons head tail ih =>
    obtain ⟨b, y⟩ := head
    obtain ⟨hb, htail⟩ := List.forall_mem_cons.mp htail
    obtain ⟨hy, hfollows⟩ := List.forall_mem_cons.mp hfollows
    have hbinary := hpolarized.binary b.token b.apply hb
    cases a with
    | right => exact hx.map₂ hbinary (ih htail hy hfollows)
    | left => exact ih htail (hx.map₂ hbinary hy) hfollows

/-- Each unary operator turns around what follows for the operand behind it. What holds of the values, with the turns
that each of them takes, holds of the operands that siblings are read as. -/
theorem Forest.follows_of_reads (f : Forest) :
    (∀ outer run first x tail, f.Reads operators a first x tail →
      (∀ p ∈ f.underUnaries operators outer run, Follows p.2 (leaf p.1) (leaf' p.1)) →
        Follows (outer + run) (x.value leaf) (x.value leaf') ∧
          ∀ p ∈ tail, Follows outer (p.2.value leaf) (p.2.value leaf')) ∧
    (∀ outer run first tail, f.Continues operators a first tail →
      (∀ p ∈ f.underUnaries operators outer run, Follows p.2 (leaf p.1) (leaf' p.1)) →
        ∀ p ∈ tail, Follows outer (p.2.value leaf) (p.2.value leaf')) := by
  induction f with
  | nil =>
    refine ⟨?_, ?_⟩
    · intro outer run first x tail h
      cases h
    · intro outer run first tail h _
      cases h
      exact List.forall_mem_nil _
  | value v rest ih =>
    refine ⟨?_, ?_⟩
    · intro outer run first x tail h hvalues
      obtain ⟨hv, hrest⟩ := List.forall_mem_cons.mp hvalues
      cases h with
      | value htail => exact ⟨hv, ih.2 _ _ _ _ htail hrest⟩
    · intro outer run first tail h
      cases h
  | operator o rest ih =>
    refine ⟨?_, ?_⟩
    · intro outer run first x tail h hvalues
      cases h with
      | @unary _ _ _ token apply y _ hop hrest =>
        have hunary : o.IsOfKind operators .unary := by
          rw [OperatorUse.IsOfKind, hop]
          rfl
        rw [underUnaries, if_pos hunary] at hvalues
        obtain ⟨hy, htail⟩ := ih.1 _ _ _ _ _ hrest hvalues
        exact ⟨hy.antitone (hpolarized.unary token apply (List.mem_of_getElem? hop)), htail⟩
    · intro outer run first tail h hvalues
      cases h with
      | @binary _ _ _ token apply y _ hop hrest =>
        have hbinary : ¬ o.IsOfKind operators .unary := by
          rw [OperatorUse.IsOfKind, hop]
          simp
        rw [underUnaries, if_neg hbinary] at hvalues
        obtain ⟨hy, htail⟩ := ih.1 _ _ _ _ _ hrest hvalues
        exact List.forall_mem_cons.mpr ⟨hy, htail⟩
  | group e content rest ihc ihr =>
    refine ⟨?_, ?_⟩
    · intro outer run first x tail h hvalues
      obtain ⟨hinside, hbehind⟩ := List.forall_mem_append.mp hvalues
      cases h with
      | group hcontent htail =>
        obtain ⟨hx, hinner⟩ := ihc.1 _ _ _ _ _ hcontent hinside
        refine ⟨?_, ihr.2 _ _ _ _ htail hbehind⟩
        exact Term.follows_nest hpolarized a ((isOf_of_reads content).1 _ _ _ hcontent) hx hinner
    · intro outer run first tail h
      cases h

end

/-- If the meaning of each value changes in the direction that the number of unary operators over it asks for, an
expression that is true remains true. -/
theorem Expression.evaluateWith_of_follows {e : Expression Bool} (hpolarized : Operator.Polarized e.operators)
    {leaf leaf' : String → Bool} (hvalues : ∀ p ∈ e.underUnaries, Follows p.2 (leaf p.1) (leaf' p.1))
    {r : Resolved Bool} (hr : e.evaluateWith leaf = .ok r) (htrue : r.value = true) :
    ∃ r', e.evaluateWith leaf' = .ok r' ∧ r'.value = true := by
  obtain ⟨x, tail, hreads⟩ := exists_reads_of_evaluateWith hr
  obtain ⟨hx, htail⟩ := (Forest.follows_of_reads hpolarized e.associativity e.content).1 0 0 1 x tail hreads hvalues
  have hnest := Term.follows_nest hpolarized e.associativity
    ((Forest.isOf_of_reads e.content).1 1 x tail hreads) hx htail
  rw [evaluateWith_of_reads hreads] at hr
  cases hr
  refine ⟨_, evaluateWith_of_reads hreads leaf', ?_⟩
  exact (Follows.iff_le_of_even Even.zero).mp hnest htrue

end Bracketed
