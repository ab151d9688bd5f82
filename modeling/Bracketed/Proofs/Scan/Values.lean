import Bracketed.Proofs.Scan.Preorder
import Bracketed.Proofs.Scan.Snapshot
import Bracketed.Proofs.Scan.Spacing

namespace Bracketed

/-- The value takes up the span `run` of the source but for blanks at its ends. No registered token begins at any
place of that span, not even one that ends behind it. -/
structure Value.Fills (w : Value) (v : Vocabulary) (source : List Char) (run : Span) : Prop where
  trimmed : Text.Trimmed w.text.toList
  spells : ∃ lead trail, run.Spells source (lead ++ (w.text.toList ++ trail)) ∧
    w.span = ⟨run.start + lead.length, run.stop - trail.length⟩ ∧
    (∀ c ∈ lead, Text.isBlank c = true) ∧ ∀ c ∈ trail, Text.isBlank c = true
  length : run.length = w.rawLength
  free : ∀ t ∈ v.texts, ∀ i, run.start ≤ i → i < run.stop → ¬ t.toList <+: source.drop i
  not_infix : ∀ t ∈ v.texts, ¬ t.toList <:+: w.text.toList

/-- The values among the siblings in the span `interior` fill all that is left between those next to them, and no
two values are next to each other. -/
structure Node.ValuesFill (v : Vocabulary) (source : List Char) (interior : Span) (siblings : List Node) : Prop where
  apart : siblings.IsChain fun m n => m.value? = none ∨ n.value? = none
  fills : ∀ before w after, siblings = before ++ .value w :: after →
    w.Fills v source
      ⟨before.getLast?.elim interior.start (·.span.stop), after.head?.elim interior.stop (·.span.start)⟩

private theorem elim_getLast?_cons {α β : Type} (a : α) (l : List α) (d : β) (f : α → β) :
    (a :: l).getLast?.elim d f = l.getLast?.elim (f a) f := by
  rw [List.getLast?_cons]
  cases l.getLast? <;> rfl

namespace Node.ValuesFill

variable {v : Vocabulary} {source : List Char} {start stop : Nat} {rest : List Node}

theorem nil (interior : Span) : Node.ValuesFill v source interior [] where
  apart := .nil
  fills := by simp

/-- Where the span begins matters to nothing but a value at its beginning. -/
theorem restart (h : Node.ValuesFill v source ⟨start, stop⟩ rest) (hhead : ∀ m ∈ rest.head?, m.value? = none)
    (start' : Nat) : Node.ValuesFill v source ⟨start', stop⟩ rest where
  apart := h.apart
  fills := by
    rintro before w after rfl
    cases before with
    | nil => cases hhead _ rfl
    | cons m before =>
      have hfills := h.fills _ w after rfl
      rwa [elim_getLast?_cons] at hfills ⊢

/-- Behind a token the other siblings are as they are without it. -/
theorem token {n : Node} (hn : n.value? = none) (h : Node.ValuesFill v source ⟨n.span.stop, stop⟩ rest)
    (start : Nat) : Node.ValuesFill v source ⟨start, stop⟩ (n :: rest) where
  apart := h.apart.cons fun _ _ => Or.inl hn
  fills := by
    intro before w after hsplit
    cases before with
    | nil =>
      cases hsplit
      cases hn
    | cons m before =>
      obtain ⟨rfl, rfl⟩ := List.cons_eq_cons.mp hsplit
      rw [elim_getLast?_cons]
      exact h.fills before w after rfl

theorem value {w : Value} (hw : w.Fills v source ⟨start, rest.head?.elim stop (·.span.start)⟩)
    (hhead : ∀ m ∈ rest.head?, m.value? = none) {start' : Nat}
    (h : Node.ValuesFill v source ⟨start', stop⟩ rest) :
    Node.ValuesFill v source ⟨start, stop⟩ (.value w :: rest) where
  apart := h.apart.cons fun m hm => Or.inr (hhead m hm)
  fills := by
    intro before u after hsplit
    cases before with
    | nil =>
      obtain ⟨hu, rfl⟩ := List.cons_eq_cons.mp hsplit
      cases hu
      exact hw
    | cons m before =>
      obtain ⟨rfl, rfl⟩ := List.cons_eq_cons.mp hsplit
      rw [elim_getLast?_cons]
      exact (h.restart hhead w.span.stop).fills before u after rfl

end Node.ValuesFill

namespace Vocabulary

variable {v : Vocabulary} {enclosing : Option Grouping} {b : Boundary} {position padding : Nat}
  {text rest cs source run : List Char} {f : Forest}

/-- Where a character is read as such, no token begins. -/
theorem Finds.not_isPrefix {c : Char} (h : v.Finds enclosing cs (.char c)) : ∀ t ∈ v.texts, ¬ t.toList <+: cs := by
  rw [finds_iff_prevails] at h
  obtain ⟨-, hopening, -, hclosing, hoperator, -⟩ := h
  refine not_isPrefix_of_eq_none hopening hclosing ?_
  intro t ht
  rw [← List.isPrefixOf_iff_prefix]
  exact operator?_eq_none_iff.mp hoperator t ht

theorem Passes.not_isPrefix (h : v.Passes enclosing run rest) {t : String} (ht : t ∈ v.texts) {k : Nat}
    (hk : k < run.length) : ¬ t.toList <+: (run ++ rest).drop k := by
  induction run generalizing k with
  | nil => cases hk
  | cons c run ih =>
    cases k with
    | zero => exact h.1.not_isPrefix t ht
    | succ k => exact ih h.2 (Nat.lt_of_succ_lt_succ hk)

/-- A run with blanks at its ends is filled by the value that it is read as. -/
theorem Passes.fills (hv : v.Valid) {lead word trail : List Char}
    (hpasses : v.Passes enclosing (lead ++ (word ++ trail)) rest) (hlead : ∀ c ∈ lead, Text.isBlank c = true)
    (hword : Text.Trimmed word) (htrail : ∀ c ∈ trail, Text.isBlank c = true)
    (hsource : RestAt source position (lead ++ (word ++ trail) ++ rest)) :
    Value.Fills ⟨String.ofList word, (lead ++ (word ++ trail)).length,
        ⟨position + lead.length, position + lead.length + word.length⟩⟩ v source
      ⟨position, position + (lead ++ (word ++ trail)).length⟩ where
  trimmed := by
    rw [String.toList_ofList]
    exact hword
  spells := by
    refine ⟨lead, trail, ?_, ?_, hlead, htrail⟩
    · rw [String.toList_ofList]
      exact hsource.spells
    · simp only [List.length_append, Span.mk.injEq, true_and]
      omega
  length := Nat.add_sub_cancel_left _ _
  free := by
    intro t ht i hlo hhi
    dsimp only at hlo hhi
    obtain ⟨before, rfl, rfl⟩ := hsource
    obtain ⟨k, rfl⟩ := Nat.exists_eq_add_of_le hlo
    rw [List.drop_length_add_append]
    exact hpasses.not_isPrefix ht (Nat.lt_of_add_lt_add_left hhi)
  not_infix := by
    rintro t ht ⟨front, back, hinfix⟩
    rw [String.toList_ofList] at hinfix
    subst hinfix
    have hpositive := List.length_pos_iff.mpr (mt String.toList_eq_nil_iff.mp (hv.ne_empty t ht))
    have hrun : lead ++ (front ++ t.toList ++ back ++ trail) ++ rest =
        (lead ++ front) ++ (t.toList ++ (back ++ (trail ++ rest))) := by
      simp only [List.append_assoc]
    have hnot := hpasses.not_isPrefix ht (k := (lead ++ front).length) (by simp only [List.length_append]; omega)
    rw [hrun, List.drop_left] at hnot
    exact hnot (List.prefix_append _ _)

/-- What begins at a token begins with a sibling that is no value, or has none. -/
theorem Scans.head?_tops (h : v.Scans enclosing .token position text rest padding f) (parent first : Nat) :
    (f.tops parent first).head?.elim (position + text.length) (·.span.start) = position ∧
      ∀ m ∈ (f.tops parent first).head?, m.value? = none := by
  cases h with
  | stop => exact ⟨rfl, by simp [Forest.tops]⟩
  | operator | group =>
    refine ⟨rfl, ?_⟩
    rintro m ⟨⟩
    rfl

/-- The values among siblings that are scanned from a text fill all that is left between the other siblings. -/
theorem Scans.valuesFill (hv : v.Valid) (h : v.Scans enclosing b position text rest padding f)
    (hsource : RestAt source position (text ++ rest)) (parent first : Nat) :
    Node.ValuesFill v source ⟨position, position + text.length⟩ (f.tops parent first) := by
  induction h generalizing first with
  | stop enclosing position rest => exact Node.ValuesFill.nil _
  | @blanks enclosing position run text rest padding f hpasses hblank htoken ih =>
    rw [List.append_assoc] at hsource
    rw [List.length_append, ← Nat.add_assoc]
    exact (ih hsource.advance first).restart (htoken.head?_tops parent first).2 position
  | @value enclosing position lead word trail text rest padding f hpasses hlead hword htrail htoken ih =>
    rw [List.append_assoc] at hsource
    obtain ⟨hhead, hnone⟩ := htoken.head?_tops parent (first + 1)
    have hfills := hpasses.fills hv hlead hword htrail hsource
    rw [List.length_append, ← Nat.add_assoc, Forest.tops]
    exact .value (by rwa [hhead]) hnone (ih hsource.advance (first + 1))
  | @operator enclosing position index token text rest padding f hfinds hrun ih =>
    rw [List.append_assoc] at hsource
    have hafter := hsource.advance
    rw [String.length_toList] at hafter
    rw [List.length_append, String.length_toList, ← Nat.add_assoc]
    exact .token rfl (ih hafter (first + 1)) position
  | @group enclosing position stop inner padding g inside text rest content f hopening hcontent hclosing hstop
      hrun ihc ihr =>
    obtain ⟨-, -, hafter⟩ := hsource.group hstop
    have hend : position + (g.opening.toList ++ (inside ++ (g.closing.toList ++ text))).length =
        stop + text.length := by
      simp only [List.length_append, String.length_toList]
      omega
    rw [hend]
    exact .token rfl (ihr hafter (first + 1 + content.size)) position

end Vocabulary

namespace Parser

variable {T : Type} {p : Parser T} {source : String} {e : Expression T}

/-- The values in a group fill all that is left in it between its other children. -/
theorem exists_siblings (h : p.parse source = .ok e) {g : GroupNode} (hg : .group g ∈ e.nodes) :
    ∃ siblings, g.children.map (e.nodes[·]?) = siblings.map some ∧
      Node.ValuesFill p.vocabulary source.toList g.interior siblings := by
  obtain ⟨hvalid, hscans, hsource, -, -⟩ := parse_spec h
  have hstart : RestAt source.toList 0 (source.toList ++ []) := by
    rw [List.append_nil]
    exact RestAt.start source.toList
  obtain ⟨id, hid⟩ := List.mem_iff_getElem?.mp hg
  rcases Nat.eq_zero_or_pos id with rfl | hpos
  · cases hid
    have hfill := hscans.valuesFill hvalid hstart Expression.rootId 1
    rw [Nat.zero_add, String.length_toList, ← hsource] at hfill
    rw [← hsource]
    exact ⟨_, e.content_standsIn.map_ids, hfill⟩
  · have hlt := (List.getElem?_eq_some_iff.mp hid).1
    rw [Expression.length_nodes] at hlt
    obtain ⟨parent, d, content, inside, after, rfl, hcontent, ⟨front, back, -, hspan⟩, hinside, hscans⟩ :=
      hscans.exists_interior hstart e.content_standsIn hpos (by omega) hid
    have hfill := hscans.valuesFill hvalid hinside id (id + 1)
    have hstop : d.span.start + d.grouping.opening.length + inside.length =
        d.span.stop - d.grouping.closing.length := by
      rw [hspan]
      simp only [List.length_append, String.length_toList]
      omega
    rw [hstop] at hfill
    exact ⟨_, hcontent.map_ids, hfill⟩

/-- Every value is all of some run of the source but for the blanks at its ends. -/
theorem exists_run (h : p.parse source = .ok e) {w : Value} (hw : .value w ∈ e.nodes) :
    ∃ run, w.Fills p.vocabulary source.toList run := by
  obtain ⟨id, hid⟩ := List.mem_iff_getElem?.mp hw
  have hlt := (List.getElem?_eq_some_iff.mp hid).1
  have hpos : id ≠ 0 := by
    rintro rfl
    cases hid
  have hlisted : id ∈ e.nodes.flatMap Node.children :=
    (growsAt_of_parse h).mem_children_iff.mpr ⟨Nat.pos_of_ne_zero hpos, hlt⟩
  obtain ⟨n, hn, hchild⟩ := List.mem_flatMap.mp hlisted
  cases n with
  | value | operator => cases hchild
  | group g =>
    obtain ⟨siblings, hsiblings, hfill⟩ := exists_siblings h hn
    have hmem : some (.value w) ∈ siblings.map some := by
      rw [← hsiblings, ← hid]
      exact List.mem_map_of_mem hchild
    have hmem' := (List.mem_map_of_injective (Option.some_injective _)).mp hmem
    obtain ⟨before, after, hsplit⟩ := List.append_of_mem hmem'
    exact ⟨_, hfill.fills before w after hsplit⟩

end Parser

end Bracketed
