import Bracketed.Proofs.Drawing
import Bracketed.Proofs.Scan.Parse
import Bracketed.Proofs.Text.Lines
import Mathlib.Algebra.GroupWithZero.Nat

namespace Bracketed

variable {T : Type}

/-- The text that stands for a node of the numbered view in a drawing, before it is shortened. -/
def Node.label (operators : List (Operator T)) : Node → String
  | .group ⟨_, none, children, _, _⟩ => "Root (" ++ toString children.length ++ " items)"
  | .group ⟨_, some grouping, _, _, _⟩ => grouping.label
  | .value v => v.text
  | .operator o => (operators[o.operator]?.map Operator.token).getD ""

namespace Snapshot

/-- How many lines it takes to show labels: one for each, and one more for each line feed in the part of it that is
shown. -/
def lineCount (labels : List String) : Nat :=
  (labels.map fun label => 1 + (label.toList.take labelLimit).count '\n').sum

@[simp] theorem lineCount_nil : lineCount [] = 0 := rfl

@[simp] theorem lineCount_cons (label : String) (labels : List String) :
    lineCount (label :: labels) = 1 + (label.toList.take labelLimit).count '\n' + lineCount labels := by
  simp [lineCount]

@[simp] theorem lineCount_append (labels others : List String) :
    lineCount (labels ++ others) = lineCount labels + lineCount others := by
  simp [lineCount]

theorem length_le_lineCount (labels : List String) : labels.length ≤ lineCount labels := by
  induction labels with
  | nil => simp
  | cons label labels ih =>
    rw [List.length_cons, lineCount_cons]
    omega

theorem lineCount_eq_length_iff {labels : List String} :
    lineCount labels = labels.length ↔ ∀ label ∈ labels, '\n' ∉ label.toList.take labelLimit := by
  induction labels with
  | nil => simp
  | cons label labels ih =>
    have hle := length_le_lineCount labels
    rw [List.forall_mem_cons, ← ih, ← List.count_eq_zero, lineCount_cons, List.length_cons]
    omega

/-- A node's own line ends at its label, and each line feed in the label ends one before. -/
theorem hasLines_caption {front : List Char} (hfront : '\n' ∉ front) (s : Snapshot) :
    Text.HasLines (1 + (s.label.toList.take labelLimit).count '\n')
      (front ++ ((caption s.kind s.label).toList ++ ['\n'])) := by
  have hlines := Text.hasLines_append_newline (front ++ (caption s.kind s.label).toList)
  rwa [List.count_append, List.count_eq_zero_of_not_mem hfront, count_newline_caption, Nat.zero_add,
    Nat.add_comm, List.append_assoc] at hlines

/-- Siblings and all below them are drawn on as many lines as it takes to show their labels. -/
theorem hasLines_drawBranches (siblings : List Snapshot) {margin : String} (hmargin : '\n' ∉ margin.toList) :
    Text.HasLines (lineCount ((subtreesOf siblings).map label)) (drawBranches margin siblings).toList := by
  induction siblings using siblings_induction generalizing margin with
  | nil => exact Text.hasLines_nil
  | cons s rest ihc ihr =>
    have hbelow : '\n' ∉ (margin ++ belowBranch rest.isEmpty).toList := by
      rw [String.toList_append, List.mem_append, not_or]
      exact ⟨hmargin, newline_notMem_belowBranch _⟩
    have hfront : '\n' ∉ margin.toList ++ ((branch rest.isEmpty).toList ++ [' ']) := by
      have hbranch : '\n' ∉ (branch rest.isEmpty).toList ++ [' '] := by cases rest.isEmpty <;> decide
      rw [List.mem_append, not_or]
      exact ⟨hmargin, hbranch⟩
    have hlines := (hasLines_caption hfront s).append ((ihc hbelow).append (ihr hmargin))
    rw [subtreesOf_cons, List.map_cons, List.map_append, lineCount_cons, lineCount_append, toList_drawBranches_cons]
    simpa using hlines

theorem hasLines_drawing (s : Snapshot) :
    Text.HasLines (lineCount (s.subtrees.map label)) s.drawing.toList := by
  have hmargin : '\n' ∉ "".toList := by decide
  have hlines := (hasLines_caption List.not_mem_nil s).append (hasLines_drawBranches s.children hmargin)
  rw [subtrees_eq, List.map_cons, lineCount_cons, toList_drawing]
  simpa using hlines

end Snapshot

/-- The trees in a snapshot come in the order of the nodes' numbers, and have the nodes' labels. -/
theorem Forest.map_label_subtreesOf_snapshots (operators : List (Operator T)) (f : Forest) (parent first : Nat) :
    (Snapshot.subtreesOf (f.snapshots operators)).map Snapshot.label =
      (f.nodes parent first).map (Node.label operators) := by
  induction f generalizing parent first with
  | nil => rfl
  | value v rest ih =>
    rw [snapshots, Snapshot.subtreesOf_cons, nodes, List.map_cons, List.map_cons, List.map_append,
      ih parent (first + 1)]
    rfl
  | operator o rest ih =>
    have hlabel : (Snapshot.ofOperator operators o).label = Node.label operators (.operator o) := by
      rw [Snapshot.ofOperator, Node.label]
      cases operators[o.operator]? <;> rfl
    have hchildren : (Snapshot.ofOperator operators o).children = [] := by
      rw [Snapshot.ofOperator]
      cases operators[o.operator]? <;> rfl
    rw [snapshots, Snapshot.subtreesOf_cons, nodes, List.map_cons, List.map_cons, List.map_append, hlabel,
      hchildren, ih parent (first + 1)]
    rfl
  | group e content rest ihc ihr =>
    have hchildren (children : List Snapshot) : (Snapshot.ofGroup e children).children = children := rfl
    rw [snapshots, Snapshot.subtreesOf_cons, nodes, List.map_cons, List.map_cons, List.map_append,
      List.map_append, hchildren, ihc first (first + 1), ihr parent (first + 1 + content.size)]
    rfl

namespace Expression

theorem map_label_subtrees_snapshot (e : Expression T) :
    e.snapshot.subtrees.map Snapshot.label = e.nodes.map (Node.label e.operators) := by
  have hchildren : e.snapshot.children = e.content.snapshots e.operators := rfl
  have hlabel : e.snapshot.label = Node.label e.operators (.group e.root) := by
    change _ = "Root (" ++ toString (e.content.ids 1).length ++ " items)"
    rw [Forest.length_ids]
    rfl
  rw [Snapshot.subtrees_eq, nodes, List.map_cons, List.map_cons, hchildren, hlabel,
    Forest.map_label_subtreesOf_snapshots e.operators e.content rootId 1]

/-- The display has a line for each node exactly if no line feed is in the part of a node's label that is shown. -/
theorem hasLines_display_iff (e : Expression T) :
    Text.HasLines e.nodes.length e.display.toList ↔
      ∀ n ∈ e.nodes, '\n' ∉ (n.label e.operators).toList.take Snapshot.labelLimit := by
  have hlines := e.snapshot.hasLines_drawing
  rw [map_label_subtrees_snapshot] at hlines
  have hiff : Snapshot.lineCount (e.nodes.map (Node.label e.operators)) = e.nodes.length ↔
      ∀ n ∈ e.nodes, '\n' ∉ (n.label e.operators).toList.take Snapshot.labelLimit := by
    rw [← List.length_map (Node.label e.operators), Snapshot.lineCount_eq_length_iff, List.forall_mem_map]
  rw [← hiff]
  constructor
  · intro h
    exact hlines.count_newline.symm.trans h.count_newline
  · intro h
    rwa [h] at hlines

end Expression

/-- A value may go on over a line break between its words. The label that stands for it is then drawn over two
lines. -/
theorem Parser.not_hasLines_display_broken_value :
    let e := { bracketed with source := "a\nb", padding := 0, content := .value ⟨"a\nb", 3, ⟨0, 3⟩⟩ .nil }
    bracketing.vocabulary.check = .ok () ∧ bracketing.parse "a\nb" = .ok e ∧ e.nodes.length = 2 ∧
      e.display = "⧉ Root (1 items)\n└─ ◦ a\nb\n" ∧ ¬ Text.HasLines e.nodes.length e.display.toList := by
  intro e
  have hcheck : bracketing.vocabulary.check = .ok () := by with_unfolding_all rfl
  have hparse : bracketing.parse "a\nb" = .ok e := by with_unfolding_all rfl
  have hdisplay : e.display = "⧉ Root (1 items)\n└─ ◦ a\nb\n" := by decide
  refine ⟨hcheck, hparse, rfl, hdisplay, ?_⟩
  intro h
  have hcount := h.count_newline
  rw [hdisplay] at hcount
  exact absurd hcount (by decide)

end Bracketed
