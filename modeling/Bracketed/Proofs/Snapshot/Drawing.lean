import Bracketed.Proofs.Drawing
import Bracketed.Proofs.Text.Lines
import Mathlib.Data.List.Forall2

namespace Bracketed.Snapshot

/-- Two trees of one shape whose nodes in the same place have the same sign and the same shortened label. -/
inductive DrawnAlike : Snapshot → Snapshot → Prop where
  | node {s t : Snapshot} (hkind : s.kind = t.kind ∨ s.kind ∉ signedKinds ∧ t.kind ∉ signedKinds)
      (hlabel : shortLabel s.label = shortLabel t.label) (hchildren : List.Forall₂ DrawnAlike s.children t.children) :
      DrawnAlike s t

/-- A label without a line feed in the part that is shown can be told from a text that it begins, and so can its
sign. -/
theorem caption_append_newline_inj {kind label kind' label' : String} {back back' : List Char}
    (hlabel : '\n' ∉ label.toList.take labelLimit) (hlabel' : '\n' ∉ label'.toList.take labelLimit)
    (h : (caption kind label).toList ++ '\n' :: back = (caption kind' label').toList ++ '\n' :: back') :
    icon kind = icon kind' ∧ shortLabel label = shortLabel label' ∧ back = back' := by
  have hcaption {kind label : String} (hlabel : '\n' ∉ label.toList.take labelLimit) :
      '\n' ∉ (caption kind label).toList := by
    rwa [← List.count_eq_zero, count_newline_caption, List.count_eq_zero]
  obtain ⟨hcaptions, hback⟩ := Text.append_newline_inj (hcaption hlabel) (hcaption hlabel') h
  obtain ⟨sign, hsign, -⟩ := exists_toList_icon kind
  obtain ⟨sign', hsign', -⟩ := exists_toList_icon kind'
  simp only [caption, String.toList_append, hsign, hsign', List.cons_append, List.cons_eq_cons,
    List.append_right_inj, String.toList_inj] at hcaptions
  refine ⟨?_, hcaptions.2, hback⟩
  rw [← String.toList_inj, hsign, hsign', hcaptions.1]

theorem branch_append_inj {isLast isLast' : Bool} {back back' : List Char}
    (h : (branch isLast).toList ++ back = (branch isLast').toList ++ back') : isLast = isLast' ∧ back = back' := by
  cases isLast <;> cases isLast' <;> simp_all [branch]

/-- The text has no branch in front that stands at the margin or to the right of it. -/
def LeavesMargin (margin text : List Char) : Prop :=
  text = [] ∨ ¬ margin <+: text

theorem LeavesMargin.append {margin text : List Char} (h : LeavesMargin margin text) (inner : List Char) :
    LeavesMargin (margin ++ inner) text := by
  rcases h with hnil | hnot
  · exact .inl hnil
  · exact .inr fun hprefix => hnot ((List.prefix_append margin inner).trans hprefix)

theorem not_leavesMargin_drawBranches_cons (margin : String) (s : Snapshot) (rest : List Snapshot)
    (text : List Char) : ¬ LeavesMargin margin.toList ((drawBranches margin (s :: rest)).toList ++ text) := by
  rw [toList_drawBranches_cons, List.append_assoc]
  rintro (hnil | hnot)
  · simp at hnil
  · exact hnot (List.prefix_append _ _)

/-- What is drawn behind the children of a node leaves their margin: a branch differs from what stands below
branches in its first character. -/
theorem leavesMargin_drawBranches {margin : String} {text : List Char} (h : LeavesMargin margin.toList text)
    (isLast : Bool) (siblings : List Snapshot) :
    LeavesMargin (margin ++ belowBranch isLast).toList ((drawBranches margin siblings).toList ++ text) := by
  rw [String.toList_append]
  cases siblings with
  | nil => exact h.append _
  | cons s rest =>
    right
    rw [toList_drawBranches_cons, List.append_assoc, List.prefix_append_right_inj]
    cases isLast <;> cases rest.isEmpty <;> simp [belowBranch, branch]

/-- Siblings can be told from what is drawn of them, and so can the text behind it if it leaves their margin. -/
theorem drawnAlike_of_drawBranches_append {siblings siblings' : List Snapshot} {margin : String}
    {text text' : List Char} (hlabels : ∀ s ∈ subtreesOf siblings, '\n' ∉ s.label.toList.take labelLimit)
    (hlabels' : ∀ s ∈ subtreesOf siblings', '\n' ∉ s.label.toList.take labelLimit)
    (htext : LeavesMargin margin.toList text) (htext' : LeavesMargin margin.toList text')
    (h : (drawBranches margin siblings).toList ++ text = (drawBranches margin siblings').toList ++ text') :
    List.Forall₂ DrawnAlike siblings siblings' ∧ text = text' := by
  -- What stands behind a node's children are its siblings, so the text behind is taken along. The induction carries
  -- that it leaves the margin, which keeps it from being read as one more sibling.
  induction siblings using siblings_induction generalizing siblings' margin text text' with
  | nil =>
    cases siblings' with
    | nil => exact ⟨.nil, h⟩
    | cons t rest' =>
      rw [drawBranches, String.toList_empty, List.nil_append] at h
      exact absurd (h ▸ htext) (not_leavesMargin_drawBranches_cons margin t rest' text')
  | cons s rest ihc ihr =>
    cases siblings' with
    | nil =>
      rw [drawBranches, String.toList_empty, List.nil_append] at h
      exact absurd (h ▸ htext') (not_leavesMargin_drawBranches_cons margin s rest text)
    | cons t rest' =>
      simp only [subtreesOf_cons, List.forall_mem_cons, List.forall_mem_append] at hlabels hlabels'
      obtain ⟨hlabel, hinside, hrest⟩ := hlabels
      obtain ⟨hlabel', hinside', hrest'⟩ := hlabels'
      simp only [toList_drawBranches_cons, List.append_assoc, List.cons_append, List.append_right_inj] at h
      obtain ⟨hlast, hline⟩ := branch_append_inj h
      rw [hlast] at hline
      obtain ⟨hicon, hshort, hbehind⟩ := caption_append_newline_inj hlabel hlabel' (List.tail_eq_of_cons_eq hline)
      obtain ⟨hchildren, hsiblings⟩ := ihc hinside hinside' (leavesMargin_drawBranches htext _ rest)
        (leavesMargin_drawBranches htext' _ rest') hbehind
      obtain ⟨hothers, htexts⟩ := ihr hrest hrest' htext htext' hsiblings
      exact ⟨.cons (.node (icon_eq_icon_iff.mp hicon) hshort hchildren) hothers, htexts⟩

theorem drawBranches_congr {siblings siblings' : List Snapshot} (h : List.Forall₂ DrawnAlike siblings siblings')
    (margin : String) : drawBranches margin siblings = drawBranches margin siblings' := by
  induction siblings using siblings_induction generalizing siblings' margin with
  | nil =>
    cases h
    rfl
  | cons s rest ihc ihr =>
    cases h with
    | @cons _ t _ rest' halike hrest =>
      obtain ⟨hkind, hlabel, hchildren⟩ := halike
      have hempty : rest.isEmpty = rest'.isEmpty := by cases hrest <;> rfl
      rw [← String.toList_inj, toList_drawBranches_cons, toList_drawBranches_cons, caption, caption,
        icon_eq_icon_iff.mpr hkind, hlabel, hempty, ihc hchildren, ihr hrest]

/-- A drawing shows of a tree its shape, and of each node its sign and its shortened label, and nothing else. This
needs that no label shows a line feed, because the rest of such a label could look like another branch. -/
theorem drawing_eq_iff_drawnAlike {s t : Snapshot}
    (hs : ∀ n ∈ s.subtrees, '\n' ∉ n.label.toList.take labelLimit)
    (ht : ∀ n ∈ t.subtrees, '\n' ∉ n.label.toList.take labelLimit) : s.drawing = t.drawing ↔ DrawnAlike s t := by
  constructor
  · intro h
    rw [subtrees_eq, List.forall_mem_cons] at hs ht
    rw [← String.toList_inj, toList_drawing, toList_drawing] at h
    obtain ⟨hicon, hlabel, hbelow⟩ := caption_append_newline_inj hs.1 ht.1 h
    have hend : LeavesMargin "".toList [] := .inl rfl
    have hchildren := drawnAlike_of_drawBranches_append hs.2 ht.2 hend hend (by rw [hbelow])
    exact .node (icon_eq_icon_iff.mp hicon) hlabel hchildren.1
  · rintro ⟨hkind, hlabel, hchildren⟩
    rw [drawing, drawing, caption, caption, icon_eq_icon_iff.mpr hkind, hlabel, drawBranches_congr hchildren]

/-- The child's label begins like a branch, and the two trees differ in what is not shown of it. -/
theorem drawing_eq_iff_drawnAlike_deep_child :
    let tree (kind unseen : String) : Snapshot :=
      ⟨"Root", "Root (1 items)", ∅,
        [⟨kind, "│ ├─ ◦ abcdefghijklmnopqrstuvwxyz" ++ unseen, ∅, [leaf "Value" "└─ ƒ b"]⟩]⟩
    (∀ n ∈ (tree "List" "").subtrees, '\n' ∉ n.label.toList.take labelLimit) ∧
      (∀ n ∈ (tree "Table" "\n").subtrees, '\n' ∉ n.label.toList.take labelLimit) ∧
      (tree "List" "").drawing = (tree "Table" "\n").drawing ∧ DrawnAlike (tree "List" "") (tree "Table" "\n") := by
  intro tree
  have hlist : ∀ n ∈ (tree "List" "").subtrees, '\n' ∉ n.label.toList.take labelLimit := by decide
  have htable : ∀ n ∈ (tree "Table" "\n").subtrees, '\n' ∉ n.label.toList.take labelLimit := by decide
  have hdrawing : (tree "List" "").drawing = (tree "Table" "\n").drawing := by decide
  exact ⟨hlist, htable, hdrawing, (drawing_eq_iff_drawnAlike hlist htable).mp hdrawing⟩

end Bracketed.Snapshot
