import Bracketed.Proofs.Scan.Matching
import Bracketed.Proofs.Scan.OpenGroups

namespace Bracketed

/-- The end delimiters of open groups, the innermost one first, each with a space in front of it. -/
def closings : List (Nat × Grouping) → String
  | [] => ""
  | (_, g) :: outer => " " ++ g.closing ++ closings outer

/-- The groups and where they stand if these end delimiters follow a text that ends at `position`. -/
def closedSpans (position : Nat) : List (Nat × Grouping) → List (Grouping × Span)
  | [] => []
  | (start, g) :: outer =>
    let stop := position + 1 + g.closing.length
    (g, ⟨start, stop⟩) :: closedSpans stop outer

def closingTokens : List (Nat × Grouping) → List Token
  | [] => []
  | (_, g) :: outer => .char ' ' :: .closing g :: closingTokens outer

theorem toList_closings (groups : List (Nat × Grouping)) :
    (closings groups).toList = Token.spell (closingTokens groups) := by
  induction groups with
  | nil => rfl
  | cons o outer ih =>
    rw [closings, String.toList_append, String.toList_append, ih]
    rfl

example : closings [(9, ⟨"[", "]]"⟩), (6, ⟨"(", ")"⟩)] = " ]] )" := by decide

/-- No start delimiter stands at the beginning of an end delimiter. -/
def Vocabulary.StartsApart (v : Vocabulary) : Prop :=
  ∀ g ∈ v.groupings, ∀ d ∈ v.groupings, ¬ g.opening.toList <+: d.closing.toList

/-- The node with the number `id` is the innermost one of these groups. The others are around it one after the other,
and around them there is none but the root. -/
inductive Node.IsWithin (all : List Node) : (id : Nat) → List (Grouping × Span) → Prop where
  | root : IsWithin all Expression.rootId []
  | group {id parent : Nat} {n : GroupNode} {g : Grouping} {outer : List (Grouping × Span)}
      (hnode : all[id]? = some (.group n)) (hgrouping : n.grouping = some g) (hparent : n.parent = some parent)
      (houter : IsWithin all parent outer) : IsWithin all id ((g, n.span) :: outer)

namespace Forest

/-- All that stands in the innermost one of these groups are the siblings `content`. The others are around it one
after the other, and the outermost one is among the siblings `whole`. -/
inductive HasContent (whole : Forest) : List (Grouping × Span) → Forest → Prop where
  | top : HasContent whole [] whole
  | group {outer : List (Grouping × Span)} {before content after : Forest} {e : Enclosure}
      (h : HasContent whole outer (before.append (.group e content after))) :
      HasContent whole ((e.grouping, e.span) :: outer) content

variable {all : List Node} {parent first : Nat}

theorem StandsIn.behind {before f : Forest} (h : (before.append f).StandsIn all parent first) :
    ∃ first', f.StandsIn all parent first' := by
  induction before generalizing first with
  | nil => exact ⟨first, h⟩
  | value v rest ih => exact ih h.value.2
  | operator o rest ih => exact ih h.operator.2
  | group e content rest ihc ihr => exact ihr h.group.2.2

/-- The numbers of a content's nodes are those of the nodes below a group that the others are around. -/
theorem HasContent.exists_isWithin {whole content : Forest} {groups : List (Grouping × Span)}
    (h : whole.HasContent groups content) (hwhole : whole.StandsIn all Expression.rootId first) :
    ∃ id first', Node.IsWithin all id groups ∧ content.StandsIn all id first' := by
  induction h with
  | top => exact ⟨_, first, .root, hwhole⟩
  | group h ih =>
    obtain ⟨parent, first', hwithin, hstands⟩ := ih
    obtain ⟨id, hgroup⟩ := hstands.behind
    obtain ⟨hnode, hcontent, _⟩ := hgroup.group
    exact ⟨id, id + 1, .group hnode rfl rfl hwithin, hcontent⟩

end Forest

namespace Matcher

/-- A matcher that reads tokens has those groups open that reading knows of. -/
theorem exists_of_reads {v : Vocabulary} {rest : List Char} {groups opened : List (Nat × Grouping)}
    {position : Nat} {tokens : List Token} (h : v.Reads rest groups position tokens opened) (m : Matcher)
    (hgroups : m.groups = groups) (hposition : m.position = position) :
    ∃ m' : Matcher, m'.groups = opened ∧ m'.position = position + (Token.spell tokens).length ∧
      ∀ behind, m'.complete (Level.ofTokens m'.position behind) =
        m.complete (Level.ofTokens m.position (tokens ++ behind)) := by
  induction h generalizing m with
  | nil groups position => exact ⟨m, hgroups, hposition, fun _ => rfl⟩
  | @cons groups opened position token tokens hfinds hbehind ih =>
    subst hgroups hposition
    obtain ⟨next, -, hopen, hnext, hcomplete⟩ := exists_step_eq_ok hfinds.spec.1.within_lexeme
    obtain ⟨m', hopened, hposition, hrest⟩ := ih next hopen hnext
    refine ⟨m', hopened, ?_, ?_⟩
    · rw [hposition, Token.spell_cons, List.length_append, ← Nat.add_assoc]
      rfl
    · intro behind
      rw [hrest, hcomplete]
      rfl

/-- If the end delimiters of all open groups follow, these groups stand around what the innermost one holds. -/
theorem hasContent_closeAll (opened : List OpenGroup) {groups : List (Nat × Grouping)}
    (hgroups : opened.map (fun o => (o.start, o.grouping)) = groups) (position : Nat) (content : Content) :
    (closeAll content (Level.ofTokens position (closingTokens groups)).1.stop opened
      (Level.ofTokens position (closingTokens groups)).2).forest.HasContent (closedSpans position groups)
        content.forest := by
  induction opened generalizing groups position content with
  | nil =>
    subst hgroups
    exact .top
  | cons o opened ih =>
    subst hgroups
    let stop := position + 1 + o.grouping.closing.length
    let e : Enclosure := { grouping := o.grouping, span := ⟨o.start, stop⟩, padding := content.padding }
    let next := (Level.ofTokens stop (closingTokens (opened.map fun o => (o.start, o.grouping)))).1.flush stop
    have hrest := ih rfl stop
      ⟨o.around.padding + next.padding, o.around.forest.append (.group e content.forest next.forest)⟩
    rw [List.map_cons, closingTokens, Level.ofTokens_char, Level.ofTokens_closing, closeAll, List.headD_cons,
      List.tail_cons, Level.stop_flush]
    exact .group hrest

end Matcher

namespace Vocabulary

variable {v : Vocabulary}

/-- No token reaches into end delimiters with a space in front of them. -/
theorem IsBlankFree.separates_closings (hfree : v.IsBlankFree) (text : List Char) (groups : List (Nat × Grouping)) :
    v.Separates text (Token.spell (closingTokens groups)) := by
  cases groups with
  | nil => exact separates_nil text
  | cons o outer => exact hfree.separates (List.cons_ne_nil ' ' []) Outline.isBlank_of_mem_space text _

/-- Open groups are closed by their end delimiters, the innermost one first. -/
theorem reads_closings (hv : v.Valid) (hfree : v.IsBlankFree) (hapart : v.StartsApart)
    {closed : List (Nat × Grouping)} (hclosed : ∀ x ∈ closed, x.2 ∈ v.groupings) (opened : List (Nat × Grouping))
    (position : Nat) : v.Reads [] (closed ++ opened) position (closingTokens closed) opened := by
  induction closed generalizing position with
  | nil => exact .nil opened position
  | cons o closed ih =>
    obtain ⟨start, g⟩ := o
    obtain ⟨hg, hclosed⟩ := List.forall_mem_cons.mp hclosed
    have hregistered := mem_groupings_of_eq_some hg
    have hspace := (hfree.passes hv.ne_empty hregistered Outline.isBlank_of_mem_space
      (g.closing.toList ++ Token.spell (closingTokens closed) ++ [])).1
    have hend : v.opening? g.closing.toList = none := by
      refine List.find?_eq_none.mpr fun d hd => ?_
      rw [List.isPrefixOf_iff_prefix]
      exact hapart d hd g hg
    have hclosing := (finds_closing hv hg hend).extend hregistered (hfree.separates_closings _ closed)
    rw [← List.append_nil (Token.spell _)] at hclosing
    exact .cons hspace (.cons hclosing (ih hclosed _))

section

variable {tokens : List Token} {closed opened : List (Nat × Grouping)}

theorem Reads.append_closings (h : v.Reads [] [] 0 tokens (closed ++ opened)) (hv : v.Valid) (hfree : v.IsBlankFree)
    (hapart : v.StartsApart) : v.Reads [] [] 0 (tokens ++ closingTokens closed) opened := by
  have hregistered := (List.forall_mem_append.mp (h.forall_mem_groupings (List.forall_mem_nil _))).1
  have hextended := h.extend (List.forall_mem_nil _) (hfree.separates_closings _ closed)
  rw [List.nil_append, ← List.append_nil (Token.spell _)] at hextended
  exact hextended.append (reads_closings hv hfree hapart hregistered opened _)

/-- In the tree of a text the groups stand inside each other that are open before their end delimiters. -/
theorem Reads.exists_hasContent (h : v.Reads [] [] 0 tokens opened) :
    ∃ content, (Level.root (tokens ++ closingTokens opened)).forest.HasContent
      (closedSpans (Token.spell tokens).length opened) content := by
  obtain ⟨m, hopened, hposition, hcomplete⟩ := Matcher.exists_of_reads h .atStart rfl rfl
  have hcontent := Matcher.hasContent_closeAll m.opened hopened m.position
    (m.join (Level.ofTokens m.position (closingTokens opened)).1)
  have hroot : (Level.root (tokens ++ closingTokens opened)).forest =
      (m.complete (Level.ofTokens m.position (closingTokens opened))).forest := by
    rw [hcomplete]
    rfl
  rw [Nat.zero_add] at hposition
  rw [hroot, ← hposition]
  exact ⟨_, hcontent⟩

end

end Vocabulary

namespace Parser

variable {T : Type} {p : Parser T} {source d : String} {i : Nat}

/-- A text in which a group is left open is completed by end delimiters with a space in front of each. They belong
to registered groupings, the first one to the group that the error points at, which stands inside the others then.
With some of them missing the error points at the group that the next one would close. -/
theorem parse_append_closings (h : p.parse source = .error (.unclosedGroup d i)) (hfree : p.vocabulary.IsBlankFree)
    (hapart : p.vocabulary.StartsApart) :
    d.toList <+: source.toList.drop i ∧ ∃ g outer, g.opening = d ∧ (∀ o ∈ (i, g) :: outer, o.2 ∈ p.groupings) ∧
      (∃ e id, p.parse (source ++ closings ((i, g) :: outer)) = .ok e ∧
        Node.IsWithin e.nodes id (closedSpans source.length ((i, g) :: outer))) ∧
      ∀ j o, ((i, g) :: outer)[j]? = some o →
        p.parse (source ++ closings (((i, g) :: outer).take j)) = .error (.unclosedGroup o.2.opening o.1) := by
  obtain ⟨hcheck, tokens, opened, rest, hsource, hreads, hhalts⟩ :=
    exists_reads_of_parse_error h (Option.some_ne_none i)
  have hvalid := Vocabulary.valid_of_check hcheck
  cases hhalts with
  | unclosed _ g outer =>
    rw [List.append_nil] at hsource
    have htext (closed : List (Nat × Grouping)) :
        (source ++ closings closed).toList = Token.spell (tokens ++ closingTokens closed) := by
      rw [String.toList_append, toList_closings, hsource, Token.spell_append]
    refine ⟨?_, g, outer, rfl, hreads.forall_mem_groupings (List.forall_mem_nil _), ?_, ?_⟩
    · have hbegins := List.find?_some (hreads.opening?_of_mem List.mem_cons_self)
      rw [List.append_nil, ← hsource] at hbegins
      exact List.isPrefixOf_iff_prefix.mp hbegins
    · obtain ⟨content, hcontent⟩ := hreads.exists_hasContent
      rw [← List.append_nil ((i, g) :: outer)] at hreads
      obtain ⟨e, hparse, hforest⟩ := parse_of_reads_nil hcheck (hreads.append_closings hvalid hfree hapart) (htext _)
      rw [← hforest, ← hsource, String.length_toList] at hcontent
      obtain ⟨id, _, hwithin, _⟩ := hcontent.exists_isWithin e.content_standsIn
      exact ⟨e, id, hparse, hwithin⟩
    · intro j o hj
      obtain ⟨hlt, rfl⟩ := List.getElem?_eq_some_iff.mp hj
      rw [← List.take_append_drop j ((i, g) :: outer), List.drop_eq_getElem_cons hlt] at hreads
      exact parse_of_reads_cons hcheck (hreads.append_closings hvalid hfree hapart) (htext _)

theorem parse_append_closings_bracketing :
    let p := bracketing.grouping "[" "]]"
    p.parse "(a) - (b-[~" = .error (.unclosedGroup "[" 9) ∧ p.vocabulary.IsBlankFree ∧ p.vocabulary.StartsApart ∧
      "[".toList <+: "(a) - (b-[~".toList.drop 9 ∧ ∃ g outer, g.opening = "[" ∧
      (∀ o ∈ (9, g) :: outer, o.2 ∈ p.groupings) ∧
      (∃ e id, p.parse ("(a) - (b-[~" ++ closings ((9, g) :: outer)) = .ok e ∧
        Node.IsWithin e.nodes id (closedSpans "(a) - (b-[~".length ((9, g) :: outer))) ∧
      ∀ j o, ((9, g) :: outer)[j]? = some o → p.parse ("(a) - (b-[~" ++ closings (((9, g) :: outer).take j)) =
        .error (.unclosedGroup o.2.opening o.1) := by
  intro p
  have hparse : p.parse "(a) - (b-[~" = .error (.unclosedGroup "[" 9) := by with_unfolding_all rfl
  have htexts : p.vocabulary.texts = ["~", "-", "(", "[", ")", "]]"] := by decide
  have hfree : p.vocabulary.IsBlankFree := by
    rw [Vocabulary.IsBlankFree, htexts]
    simp only [List.forall_mem_cons, String.reduceToList, List.not_mem_nil, false_implies, implies_true, and_true]
    exact ⟨rfl, rfl, rfl, rfl, rfl, rfl, rfl⟩
  have hapart : p.vocabulary.StartsApart := by
    unfold Vocabulary.StartsApart
    decide
  exact ⟨hparse, hfree, hapart, parse_append_closings hparse hfree hapart⟩

end Parser

end Bracketed
