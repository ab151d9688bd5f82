import Bracketed.Evaluation.Reducer
import Bracketed.Proofs.Evaluation.Reducing

namespace Bracketed

variable {T α β : Type}

/-- The first reduction is the second one, unless it is cut short. -/
def Reducing.IsCutOf (m m' : Reducing T α) : Prop :=
  ∀ trace outcome, m.outcome trace = some outcome → m'.outcome trace = some outcome

namespace Reducing

theorem isCutOf_refl (m : Reducing T α) : m.IsCutOf m :=
  fun _ _ h => h

theorem isCutOf_cutShort (m : Reducing T α) : (cutShort : Reducing T α).IsCutOf m := by
  intro trace outcome h
  cases h

namespace IsCutOf

variable {m m' : Reducing T α}

theorem bind {k k' : α → Reducing T β} (h : m.IsCutOf m') (hk : ∀ a, (k a).IsCutOf (k' a)) :
    (m >>= k).IsCutOf (m' >>= k') := by
  intro trace outcome houtcome
  rcases hm : m.outcome trace with _ | ⟨halt | a, trace'⟩
  · change (StateT.run m trace).bind _ = _ at houtcome
    change StateT.run m trace = _ at hm
    rw [hm] at houtcome
    cases houtcome
  · rw [outcome_bind_of_error hm] at houtcome
    rw [outcome_bind_of_error (h _ _ hm), houtcome]
  · rw [outcome_bind_of_ok hm] at houtcome
    rw [outcome_bind_of_ok (h _ _ hm)]
    exact hk a _ _ houtcome

theorem orAt (h : m.IsCutOf m') (position : Nat) : (m.orAt position).IsCutOf (m'.orAt position) := by
  intro trace outcome houtcome
  rw [outcome_orAt, Option.map_eq_some_iff] at houtcome
  obtain ⟨inner, hm, rfl⟩ := houtcome
  rw [outcome_orAt, h _ _ hm]
  rfl

end IsCutOf

end Reducing

namespace Reducer

/-- Whatever is called with `depth` is what is called with `depth'`, unless it is cut short. -/
structure IsCutAt (r : Reducer T) (depth depth' : Nat) : Prop where
  reduceGroup : ∀ g, (r.reduceGroup depth g).IsCutOf (r.reduceGroup depth' g)
  fold : ∀ slots, (r.fold depth slots).IsCutOf (r.fold depth' slots)
  foldFrom : ∀ slots cursor, (r.foldFrom depth slots cursor).IsCutOf (r.foldFrom depth' slots cursor)
  foldOn : ∀ slots place, (r.foldOn depth slots place).IsCutOf (r.foldOn depth' slots place)
  consume : ∀ slots i, (r.consume depth slots i).IsCutOf (r.consume depth' slots i)
  consumeUnary : ∀ slots i u, (r.consumeUnary depth slots i u).IsCutOf (r.consumeUnary depth' slots i u)
  consumeBinary : ∀ slots i b, (r.consumeBinary depth slots i b).IsCutOf (r.consumeBinary depth' slots i b)
  rightOperand : ∀ slots i, (r.rightOperand depth slots i).IsCutOf (r.rightOperand depth' slots i)

variable {r : Reducer T} {depth depth' : Nat}

open Reducing (isCutOf_refl isCutOf_cutShort)

theorem isCutAt_zero (r : Reducer T) (depth : Nat) : r.IsCutAt 0 depth where
  reduceGroup _ := isCutOf_cutShort _
  fold _ := isCutOf_cutShort _
  foldFrom _ _ := isCutOf_cutShort _
  foldOn _ _ := isCutOf_cutShort _
  consume _ _ := isCutOf_cutShort _
  consumeUnary _ _ _ := isCutOf_cutShort _
  consumeBinary _ _ _ := isCutOf_cutShort _
  rightOperand _ _ := isCutOf_cutShort _

theorem IsCutAt.succ (h : r.IsCutAt depth depth') : r.IsCutAt (depth + 1) (depth' + 1) where
  reduceGroup g := by
    simp only [Reducer.reduceGroup]
    split
    · exact isCutOf_refl _
    · exact (h.fold _).bind fun _ => isCutOf_refl _
  fold slots := by
    simp only [Reducer.fold]
    split
    · exact isCutOf_refl _
    · exact (h.foldFrom _ _).bind fun _ => isCutOf_refl _
  foldFrom slots cursor := by
    simp only [Reducer.foldFrom]
    refine (isCutOf_refl _).bind fun slot => (isCutOf_refl _).bind fun start => ?_
    exact ((h.consume slots cursor).orAt start).bind fun (place, slots) => h.foldOn slots place
  foldOn slots place := by
    simp only [Reducer.foldOn]
    split
    · exact isCutOf_refl _
    · split
      · exact isCutOf_refl _
      · exact h.foldFrom _ _
  consume slots i := by
    simp only [Reducer.consume]
    refine (isCutOf_refl _).bind fun slot => ?_
    cases slot with
    | resolved x => exact isCutOf_refl _
    | pending id =>
      refine (isCutOf_refl _).bind fun _ => (isCutOf_refl _).bind fun n => ?_
      cases n with
      | value v => exact isCutOf_refl _
      | group g => exact (h.reduceGroup g).bind fun _ => isCutOf_refl _
      | operator o =>
        refine (isCutOf_refl _).bind fun operator => ?_
        split
        · exact h.consumeUnary _ _ _
        · exact h.consumeBinary _ _ _
  consumeUnary slots i u := by
    simp only [Reducer.consumeUnary]
    split
    · exact isCutOf_refl _
    · exact (h.consume _ _).bind fun _ => isCutOf_refl _
  consumeBinary slots i b := by
    simp only [Reducer.consumeBinary]
    split
    · exact isCutOf_refl _
    · refine (isCutOf_refl _).bind fun slot => ?_
      cases slot with
      | pending id => exact isCutOf_refl _
      | resolved x =>
        dsimp only
        split
        · exact isCutOf_refl _
        · exact (h.rightOperand _ _).bind fun _ => isCutOf_refl _
  rightOperand slots i := by
    simp only [Reducer.rightOperand]
    split
    · exact (h.consume _ _).bind fun _ => isCutOf_refl _
    · refine (isCutOf_refl _).bind fun (slots, tail) => ?_
      exact (h.fold tail).bind fun _ => isCutOf_refl _

theorem isCutAt_of_le (r : Reducer T) {depth depth' : Nat} (h : depth ≤ depth') : r.IsCutAt depth depth' := by
  induction depth generalizing depth' with
  | zero => exact r.isCutAt_zero depth'
  | succ depth ih =>
    obtain ⟨depth', rfl⟩ : ∃ d, depth' = d + 1 := ⟨depth' - 1, by omega⟩
    exact (ih (Nat.le_of_succ_le_succ h)).succ

/-- What a reduction comes to does not depend on how deep its calls may nest, as soon as that is deep enough. -/
theorem outcome_reduce_of_le {trace : Trace T} {outcome : Except Halt (Placed T) × Trace T}
    (h : (r.reduce depth).outcome trace = some outcome) (hle : depth ≤ depth') :
    (r.reduce depth').outcome trace = some outcome := by
  have hcut : (r.reduce depth).IsCutOf (r.reduce depth') :=
    ((isCutOf_refl r.root).bind (r.isCutAt_of_le hle).reduceGroup).orAt 0
  exact hcut trace outcome h

end Reducer

end Bracketed
