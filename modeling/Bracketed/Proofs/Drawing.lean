import Bracketed.Snapshot.Drawing

namespace Bracketed

variable {T : Type}

namespace Snapshot

/-- Trees are taken together with their siblings to the right, because a drawing shows by its margins what stands
there. -/
@[elab_as_elim]
theorem siblings_induction {motive : List Snapshot → Prop} (nil : motive [])
    (cons : ∀ s rest, motive s.children → motive rest → motive (s :: rest)) :
    ∀ siblings, motive siblings
  | [] => nil
  | ⟨kind, label, attributes, children⟩ :: rest =>
    cons ⟨kind, label, attributes, children⟩ rest (siblings_induction nil cons children)
      (siblings_induction nil cons rest)

mutual

/-- A tree and all the trees below its nodes, each before those that are inside it. -/
def subtrees : Snapshot → List Snapshot
  | ⟨kind, label, attributes, children⟩ => ⟨kind, label, attributes, children⟩ :: subtreesOf children

/-- The trees of siblings and all the trees below their nodes. -/
def subtreesOf : List Snapshot → List Snapshot
  | [] => []
  | s :: rest => s.subtrees ++ subtreesOf rest

end

theorem subtrees_eq (s : Snapshot) : s.subtrees = s :: subtreesOf s.children := by
  cases s
  rfl

@[simp] theorem subtreesOf_cons (s : Snapshot) (rest : List Snapshot) :
    subtreesOf (s :: rest) = s :: (subtreesOf s.children ++ subtreesOf rest) := by
  rw [subtreesOf, subtrees_eq, List.cons_append]

/-- The kinds that have a sign of their own. -/
def signedKinds : List String := ["Root", "Group", "Value", "Operator"]

/-- Each of the signed kinds has its own sign, and all other kinds share one. -/
theorem icon_eq_icon_iff {kind other : String} :
    icon kind = icon other ↔ kind = other ∨ kind ∉ signedKinds ∧ other ∉ signedKinds := by
  fun_cases icon kind <;> fun_cases icon other <;> grind [signedKinds]

/-- A sign is one character, and not a line feed. -/
theorem exists_toList_icon (kind : String) : ∃ c, (icon kind).toList = [c] ∧ c ≠ '\n' := by
  fun_cases icon kind
  case case1 => exact ⟨'⧉', rfl, by decide⟩
  case case2 => exact ⟨'⊏', rfl, by decide⟩
  case case3 => exact ⟨'◦', rfl, by decide⟩
  case case4 => exact ⟨'ƒ', rfl, by decide⟩
  case case5 => exact ⟨'○', rfl, by decide⟩

/-- Shortening adds no line feed to those in the part of a label that it keeps. -/
theorem count_newline_shortLabel (label : String) :
    (shortLabel label).toList.count '\n' = (label.toList.take labelLimit).count '\n' := by
  unfold shortLabel
  split
  · rw [String.toList_append, String.toList_ofList, List.count_append]
    rfl
  · rw [List.take_of_length_le]
    rw [String.length_toList]
    omega

theorem count_newline_caption (kind label : String) :
    (caption kind label).toList.count '\n' = (label.toList.take labelLimit).count '\n' := by
  obtain ⟨sign, hsign, hne⟩ := exists_toList_icon kind
  rw [caption, String.toList_append, String.toList_append, List.count_append, List.count_append,
    count_newline_shortLabel, hsign, List.count_singleton, if_neg (by simpa using hne)]
  exact Nat.zero_add _

theorem newline_notMem_belowBranch (isLast : Bool) : '\n' ∉ (belowBranch isLast).toList := by
  cases isLast <;> decide

/-- The drawing of siblings begins with the line of the first of them. -/
theorem toList_drawBranches_cons (margin : String) (s : Snapshot) (rest : List Snapshot) :
    (drawBranches margin (s :: rest)).toList =
      margin.toList ++ ((branch rest.isEmpty).toList ++ ' ' :: ((caption s.kind s.label).toList ++
        '\n' :: ((drawBranches (margin ++ belowBranch rest.isEmpty) s.children).toList ++
          (drawBranches margin rest).toList))) := by
  cases s
  simp [drawBranches, drawBranch]

theorem toList_drawing (s : Snapshot) :
    s.drawing.toList = (caption s.kind s.label).toList ++ '\n' :: (drawBranches "" s.children).toList := by
  simp [drawing]

end Snapshot

end Bracketed
