import Bracketed.Proofs.Scan.Rendering
import Bracketed.Proofs.Scan.Wrapping

namespace Bracketed

/-- The siblings that are left if a run of these characters stands in front of others. -/
def Outline.pushRun (run : List Char) (o : Outline) : Outline :=
  match Text.trim run with
  | [] => o
  | word@(_ :: _) => .value (String.ofList word) o

namespace Outline

variable {run w lead word trail : List Char} {o : Outline}

theorem pushRun_of_blank (hrun : ∀ c ∈ run, Text.isBlank c = true) : o.pushRun run = o := by
  rw [pushRun, Text.trim_of_blank hrun]

theorem pushRun_of_trimmed (hlead : ∀ c ∈ lead, Text.isBlank c = true) (hword : Text.Trimmed word)
    (htrail : ∀ c ∈ trail, Text.isBlank c = true) :
    o.pushRun (lead ++ (word ++ trail)) = .value (String.ofList word) o := by
  obtain ⟨first, others, rfl⟩ := List.exists_cons_of_ne_nil hword.ne_nil
  rw [pushRun, (Text.trim_append hlead hword htrail).1]

/-- Blanks at the ends of a run make no difference. -/
theorem pushRun_append_blanks (hw : ∀ c ∈ w, Text.isBlank c = true) (run : List Char) (o : Outline) :
    o.pushRun (w ++ run) = o.pushRun run ∧ o.pushRun (run ++ w) = o.pushRun run := by
  rcases Text.trim_cases run with ⟨_, hrun⟩ | ⟨lead, trail, hsplit, _, hlead, htrail, hword⟩
  · have hfront : ∀ c ∈ w ++ run, Text.isBlank c = true := List.forall_mem_append.mpr ⟨hw, hrun⟩
    have hback : ∀ c ∈ run ++ w, Text.isBlank c = true := List.forall_mem_append.mpr ⟨hrun, hw⟩
    rw [pushRun_of_blank hfront, pushRun_of_blank hback, pushRun_of_blank hrun]
    exact ⟨rfl, rfl⟩
  · generalize Text.trim run = word at hsplit hword
    subst hsplit
    have hfront : o.pushRun (w ++ lead ++ (word ++ trail)) = .value (String.ofList word) o :=
      pushRun_of_trimmed (List.forall_mem_append.mpr ⟨hw, hlead⟩) hword htrail
    have hback : o.pushRun (lead ++ (word ++ (trail ++ w))) = .value (String.ofList word) o :=
      pushRun_of_trimmed hlead hword (List.forall_mem_append.mpr ⟨htrail, hw⟩)
    rw [pushRun_of_trimmed hlead hword htrail]
    simp only [List.append_assoc] at hfront hback ⊢
    exact ⟨hfront, hback⟩

section

variable {v : Vocabulary} {enclosing : Option Grouping} {b : Boundary} {position : Nat} {text rest : List Char}

theorem ScansAs.pushRun (hpasses : v.Passes enclosing run (text ++ rest))
    (h : ScansAs v enclosing .token (position + run.length) text rest o) :
    ScansAs v enclosing .run position (run ++ text) rest (o.pushRun run) := by
  rcases Text.trim_cases run with ⟨_, hrun⟩ | ⟨lead, trail, hsplit, _, hlead, htrail, hword⟩
  · rw [pushRun_of_blank hrun]
    exact .blanks hpasses hrun h
  · generalize Text.trim run = word at hsplit hword
    subst hsplit
    rw [pushRun_of_trimmed hlead hword htrail]
    rw [← String.toList_ofList (l := word)] at hpasses hword h ⊢
    rw [String.ofList_toList]
    exact .value hpasses hlead hword htrail h

theorem ScansAs.shift (h : ScansAs v enclosing b position text rest o) (k : Nat) :
    ScansAs v enclosing b (k + position) text rest o := by
  obtain ⟨padding, f, hscans, rfl⟩ := h
  exact ⟨padding, f.shift k, hscans.shift k, f.outline_shift k⟩

end

end Outline

namespace Forest

/-- Where the tokens of a forest begin and end in the source, at all depths. -/
def edges : Forest → List Nat
  | nil => []
  | value _ rest => rest.edges
  | operator o rest => o.span.start :: o.span.stop :: rest.edges
  | group e content rest =>
    e.span.start :: (e.span.start + e.grouping.opening.length) :: (e.span.stop - e.grouping.closing.length) ::
      e.span.stop :: (content.edges ++ rest.edges)

theorem mem_edges_operator {index start stop p : Nat} {f : Forest} :
    p ∈ (operator ⟨index, ⟨start, stop⟩⟩ f).edges ↔ p = start ∨ p = stop ∨ p ∈ f.edges := by
  simp only [edges, List.mem_cons]

theorem mem_edges_group {g : Grouping} {start stop inner p : Nat} {content f : Forest} :
    p ∈ (group ⟨g, ⟨start, stop⟩, inner⟩ content f).edges ↔ p = start ∨ p = start + g.opening.length ∨
      p = stop - g.closing.length ∨ p = stop ∨ p ∈ content.edges ∨ p ∈ f.edges := by
  simp only [edges, List.mem_cons, List.mem_append]

/-- Between `front` and `back`, into which a text at `position` is cut, lies the edge of a token, or the text ends
there. -/
def HasEdge (f : Forest) (position : Nat) (front back : List Char) : Prop :=
  front = [] ∨ back = [] ∨ position + front.length ∈ f.edges

/-- If no edge cuts what a text begins with, an edge of the text is one of what stands behind that. -/
theorem HasEdge.behind {f f' : Forest} {position : Nat} {first rest front back : List Char}
    (h : f.HasEdge position front back) (hsplit : first ++ rest = front ++ back) (hfront : front ≠ [])
    (hedge : position + front.length ∈ f.edges →
      front.length = first.length ∨ first.length < front.length ∧ position + front.length ∈ f'.edges) :
    ∃ middle, front = first ++ middle ∧ rest = middle ++ back ∧
      f'.HasEdge (position + first.length) middle back := by
  have hlength : first.length ≤ front.length := by
    rcases h with rfl | rfl | hp
    · exact absurd rfl hfront
    · have hsum := congrArg List.length hsplit
      rw [List.append_nil, List.length_append] at hsum
      omega
    · rcases hedge hp with heq | ⟨hlt, _⟩ <;> omega
  obtain ⟨middle, rfl⟩ := List.prefix_of_prefix_length_le ⟨rest, hsplit⟩ (List.prefix_append front back) hlength
  rw [List.append_assoc] at hsplit
  refine ⟨middle, rfl, List.append_cancel_left hsplit, ?_⟩
  rw [List.length_append] at hedge
  rcases h with hnil | hnil | hp
  · exact absurd hnil hfront
  · exact Or.inr (Or.inl hnil)
  · rw [List.length_append] at hp
    rcases hedge hp with heq | ⟨_, hp'⟩
    · exact Or.inl (List.length_eq_zero_iff.mp (by omega))
    · rw [← Nat.add_assoc] at hp'
      exact Or.inr (Or.inr hp')

/-- An edge of a group that stands in front of others is one of what is inside it, or of what is behind it. -/
theorem HasEdge.group_cases {g : Grouping} {position stop inner : Nat} {inside rest front back : List Char}
    {content f : Forest} (h : (group ⟨g, ⟨position, stop⟩, inner⟩ content f).HasEdge position front back)
    (hsplit : g.opening.toList ++ (inside ++ (g.closing.toList ++ rest)) = front ++ back) (hfront : front ≠ [])
    (hclosing : g.closing.toList ≠ [])
    (hstop : stop = position + g.opening.length + inside.length + g.closing.length)
    (hcontent : ∀ p ∈ content.edges, position + g.opening.length ≤ p ∧
      p ≤ position + g.opening.length + inside.length)
    (hrest : ∀ p ∈ f.edges, stop ≤ p) :
    (∃ lead trail, front = g.opening.toList ++ lead ∧ inside = lead ++ trail ∧
      back = trail ++ (g.closing.toList ++ rest) ∧ content.HasEdge (position + g.opening.length) lead trail) ∨
    ∃ middle, front = g.opening.toList ++ (inside ++ (g.closing.toList ++ middle)) ∧ rest = middle ++ back ∧
      f.HasEdge stop middle back := by
  have hpositive := List.length_pos_iff.mpr hfront
  have hclosingLength := List.length_pos_iff.mpr hclosing
  rw [String.length_toList] at hclosingLength
  by_cases hcut : front.length ≤ g.opening.length + inside.length
  · refine Or.inl ?_
    obtain ⟨lead, rfl, hlead, hedge⟩ : ∃ lead, front = g.opening.toList ++ lead ∧
        inside ++ (g.closing.toList ++ rest) = lead ++ back ∧
        (group ⟨g, ⟨position, stop⟩, inner⟩ content f).HasEdge (position + g.opening.toList.length) lead back := by
      refine h.behind hsplit hfront fun hp => ?_
      have hbound : g.opening.length ≤ front.length := by
        rcases mem_edges_group.mp hp with heq | heq | heq | heq | hp | hp
        · omega
        · omega
        · omega
        · omega
        · have hbounds := hcontent _ hp
          omega
        · have hbound := hrest _ hp
          omega
      rw [String.length_toList]
      exact (Nat.eq_or_lt_of_le hbound).imp Eq.symm fun hlt => ⟨hlt, hp⟩
    rw [List.length_append, String.length_toList] at hcut
    obtain ⟨trail, rfl⟩ : lead <+: inside :=
      List.prefix_of_prefix_length_le ⟨back, hlead.symm⟩ (List.prefix_append _ _) (by omega)
    rw [List.append_assoc] at hlead
    have hback := List.append_cancel_left hlead
    subst hback
    refine ⟨lead, trail, rfl, rfl, rfl, ?_⟩
    by_cases htrail : trail = []
    · exact Or.inr (Or.inl htrail)
    · have htrailLength := List.length_pos_iff.mpr htrail
      rw [String.length_toList] at hedge
      rw [List.length_append] at hstop hcut
      rcases hedge with hnil | hnil | hp
      · exact Or.inl hnil
      · exact absurd (List.append_eq_nil_iff.mp hnil).1 htrail
      · refine or_iff_not_imp_left.mpr fun hlead => Or.inr ?_
        have hleadLength := List.length_pos_iff.mpr hlead
        rcases mem_edges_group.mp hp with heq | heq | heq | heq | hp | hp
        · omega
        · omega
        · omega
        · omega
        · exact hp
        · have hbound := hrest _ hp
          omega
  · refine Or.inr ?_
    have hwhole : g.opening.toList ++ (inside ++ g.closing.toList) ++ rest = front ++ back := by
      simpa only [List.append_assoc] using hsplit
    have hlength : (g.opening.toList ++ (inside ++ g.closing.toList)).length =
        g.opening.length + inside.length + g.closing.length := by
      simp only [List.length_append, String.length_toList, Nat.add_assoc]
    obtain ⟨middle, rfl, rfl, hmiddle⟩ : ∃ middle, front = g.opening.toList ++ (inside ++ g.closing.toList) ++ middle ∧
        rest = middle ++ back ∧
        f.HasEdge (position + (g.opening.toList ++ (inside ++ g.closing.toList)).length) middle back := by
      refine h.behind hwhole hfront fun hp => ?_
      rw [hlength]
      rcases mem_edges_group.mp hp with heq | heq | heq | heq | hp | hp
      · omega
      · omega
      · omega
      · omega
      · have hbounds := hcontent _ hp
        omega
      · have hbound := hrest _ hp
        exact (Nat.eq_or_lt_of_le (by omega)).imp Eq.symm fun hlt => ⟨hlt, hp⟩
    rw [hlength, ← Nat.add_assoc, ← Nat.add_assoc, ← hstop] at hmiddle
    exact ⟨middle, by simp only [List.append_assoc], rfl, hmiddle⟩

end Forest

namespace Vocabulary

variable {v : Vocabulary} {enclosing : Option Grouping} {b : Boundary} {position padding : Nat}
  {text rest front back run w : List Char} {f : Forest}

theorem Valid.ne_empty (hv : v.Valid) : ∀ t ∈ v.texts, t ≠ "" :=
  forall_mem_texts.mpr ⟨hv.operator, hv.opening, hv.closing⟩

/-- Tokens begin and end inside the text that they are found in. -/
theorem Scans.edges_bounds (h : v.Scans enclosing b position text rest padding f) {p : Nat} (hp : p ∈ f.edges) :
    position ≤ p ∧ p ≤ position + text.length := by
  induction h with
  | stop enclosing position rest => cases hp
  | blanks hpasses hblank htoken ih | value hpasses hlead hword htrail htoken ih =>
    have hbounds := ih hp
    rw [List.length_append]
    omega
  | operator hfinds hrun ih =>
    rw [List.length_append, String.length_toList]
    rcases Forest.mem_edges_operator.mp hp with rfl | rfl | hp
    · omega
    · omega
    · have hbounds := ih hp
      omega
  | group hopening hcontent hclosing hstop hrun ihc ihr =>
    simp only [List.length_append, String.length_toList]
    rcases Forest.mem_edges_group.mp hp with rfl | rfl | rfl | rfl | hp | hp
    · omega
    · omega
    · omega
    · omega
    · have hbounds := ihc hp
      omega
    · have hbounds := ihr hp
      omega

theorem passes_append_iff : v.Passes enclosing (run ++ w) rest ↔
    v.Passes enclosing run (w ++ rest) ∧ v.Passes enclosing w rest := by
  induction run with
  | nil => exact ⟨fun h => ⟨trivial, h⟩, And.right⟩
  | cons c run ih => rw [List.cons_append, Passes, Passes, ih, and_assoc, List.append_assoc]

/-- No token goes on behind a blank. -/
theorem IsBlankFree.separates (hfree : v.IsBlankFree) (hne : w ≠ []) (hw : ∀ c ∈ w, Text.isBlank c = true)
    (text behind : List Char) : v.Separates text (w ++ behind) := by
  obtain ⟨c, others, rfl⟩ := List.exists_cons_of_ne_nil hne
  intro t ht i hi hbegins
  by_contra hlong
  -- A token that is longer than what is left of the text has the blank behind it among its characters.
  have hblank : text.drop i ++ [c] <+: text.drop i ++ (c :: others ++ behind) :=
    (List.prefix_append_right_inj _).mpr ⟨others ++ behind, rfl⟩
  rw [List.drop_append_of_le_length (Nat.le_of_lt hi)] at hbegins
  have hlength : (text.drop i ++ [c]).length ≤ t.toList.length := by
    rw [List.length_append, List.length_drop, List.length_singleton, String.length_toList]
    omega
  have hinside := List.prefix_of_prefix_length_le hblank hbegins hlength
  have hnot := hfree t ht c (hinside.subset (List.mem_append_right _ List.mem_cons_self))
  rw [hw c List.mem_cons_self] at hnot
  cases hnot

section

variable (hfree : v.IsBlankFree) (hne : w ≠ []) (hw : ∀ c ∈ w, Text.isBlank c = true)
  (henclosing : ∀ g, enclosing = some g → g ∈ v.groupings)
include hfree hne hw henclosing

/-- A token is found in spite of blanks somewhere behind it. -/
theorem Finds.insert {token : Token} (h : v.Finds enclosing (front ++ back) token) (htoken : token.text ≠ [])
    (hfront : token.text <+: front) : v.Finds enclosing (front ++ (w ++ back)) token :=
  (h.cut (List.prefix_append front back) htoken hfront).extend henclosing (hfree.separates hne hw front back)

theorem Passes.insert (h : v.Passes enclosing run (front ++ back)) :
    v.Passes enclosing run (front ++ (w ++ back)) :=
  (h.cut (List.prefix_append front back)).extend henclosing (hfree.separates hne hw _ back)

/-- Blanks somewhere behind a text make no difference to what it is scanned as. -/
theorem Scans.insert_behind (hv : v.Valid) (h : v.Scans enclosing b position text (front ++ back) padding f) :
    v.Scans enclosing b position text (front ++ (w ++ back)) padding f :=
  (h.cut hv (List.prefix_append front back)).extend henclosing (hfree.separates hne hw _ back)

/-- Blanks can be put into a text that begins with a run: in front of the run, behind it, or where they can be
put into what follows. -/
theorem scansAs_insert_of_run (hv : v.Valid) (hpasses : v.Passes enclosing run (text ++ rest))
    (htoken : v.Scans enclosing .token (position + run.length) text rest padding f)
    (hsplit : run ++ text = front ++ back) (hedge : f.HasEdge position front back)
    (hinsert : ∀ front back, text = front ++ back → front ≠ [] →
      f.HasEdge (position + run.length) front back →
      f.outline.ScansAs v enclosing .token (position + run.length) (front ++ (w ++ back)) rest) :
    (f.outline.pushRun run).ScansAs v enclosing .run position (front ++ (w ++ back)) rest := by
  have hblanks := hfree.passes hv.ne_empty henclosing hw
  obtain ⟨hpush, hpush'⟩ := Outline.pushRun_append_blanks hw run f.outline
  have hafter : f.outline.ScansAs v enclosing .token (w.length + (position + run.length)) text rest :=
    Outline.ScansAs.shift ⟨padding, f, htoken, rfl⟩ w.length
  by_cases hfront : front = []
  · subst hfront
    rw [List.nil_append] at hsplit
    rw [List.nil_append, ← hsplit, ← List.append_assoc, ← hpush]
    refine .pushRun (passes_append_iff.mpr ⟨hblanks _, hpasses⟩) ?_
    rwa [List.length_append, ← Nat.add_assoc, Nat.add_comm position, Nat.add_assoc]
  · obtain ⟨middle, rfl, rfl, hmiddle⟩ := hedge.behind hsplit hfront fun hp => by
      have hbounds := htoken.edges_bounds hp
      exact (Nat.eq_or_lt_of_le (by omega)).imp Eq.symm fun hlt => ⟨hlt, hp⟩
    by_cases hnil : middle = []
    · subst hnil
      rw [List.nil_append] at hpasses hafter
      rw [List.append_nil, ← List.append_assoc, ← hpush']
      have hrun : v.Passes enclosing run ([] ++ (back ++ rest)) := hpasses
      have hspaced : v.Passes enclosing run ([] ++ (w ++ (back ++ rest))) := hrun.insert hfree hne hw henclosing
      refine .pushRun (passes_append_iff.mpr ⟨hspaced, hblanks _⟩) ?_
      rwa [List.length_append, ← Nat.add_assoc, Nat.add_comm _ w.length]
    · rw [List.append_assoc] at hpasses ⊢
      refine .pushRun ?_ (hinsert middle back rfl hnil hmiddle)
      rw [List.append_assoc, List.append_assoc]
      exact hpasses.insert hfree hne hw henclosing

/-- Blanks inside a group move what stands behind it to the right. -/
theorem scansAs_insert_inside (hv : v.Valid) {g : Grouping} {content o : Outline}
    (hopening : v.Finds enclosing (g.opening.toList ++ (front ++ back ++ (g.closing.toList ++ (text ++ rest))))
      (.opening g))
    (hcontent : content.ScansAs v (some g) .run (position + g.opening.length) (front ++ (w ++ back))
      (g.closing.toList ++ (text ++ rest)))
    (hclosing : v.Finds (some g) (g.closing.toList ++ (text ++ rest)) (.closing g))
    (hrun : o.ScansAs v enclosing .run
      (position + g.opening.length + (front ++ back).length + g.closing.length) text rest) :
    (Outline.group g content o).ScansAs v enclosing .token position
      (g.opening.toList ++ (front ++ (w ++ back) ++ (g.closing.toList ++ text))) rest := by
  have htoken : g.opening.toList ≠ [] := hopening.spec.1.text_ne_nil hv henclosing
  have hopening' : v.Finds enclosing
      (g.opening.toList ++ front ++ (w ++ (back ++ (g.closing.toList ++ (text ++ rest))))) (.opening g) := by
    refine Finds.insert hfree hne hw henclosing ?_ htoken (List.prefix_append _ _)
    simpa only [List.append_assoc] using hopening
  have hstop : position + g.opening.length + (front ++ (w ++ back)).length + g.closing.length =
      w.length + (position + g.opening.length + (front ++ back).length + g.closing.length) := by
    simp only [List.length_append]
    omega
  refine .group ?_ hcontent hclosing ?_
  · simpa only [List.append_assoc] using hopening'
  · rw [hstop]
    exact hrun.shift w.length

/-- Blanks behind a group leave it as it is. -/
theorem scansAs_insert_after (hv : v.Valid) {g : Grouping} {inside : List Char} {content : Forest} {o : Outline}
    (hopening : v.Finds enclosing
      (g.opening.toList ++ (inside ++ (g.closing.toList ++ (front ++ back ++ rest)))) (.opening g))
    (hcontent : v.Scans (some g) .run (position + g.opening.length) inside
      (g.closing.toList ++ (front ++ back ++ rest)) padding content)
    (hclosing : v.Finds (some g) (g.closing.toList ++ (front ++ back ++ rest)) (.closing g))
    (hrun : o.ScansAs v enclosing .run (position + g.opening.length + inside.length + g.closing.length)
      (front ++ (w ++ back)) rest) :
    (Outline.group g content.outline o).ScansAs v enclosing .token position
      (g.opening.toList ++ (inside ++ (g.closing.toList ++ (front ++ (w ++ back))))) rest := by
  have hregistered := mem_groupings_of_eq_some hopening.spec.1
  have hopening' : v.Finds enclosing
      (g.opening.toList ++ (inside ++ (g.closing.toList ++ front)) ++ (w ++ (back ++ rest))) (.opening g) := by
    refine Finds.insert hfree hne hw henclosing ?_ (hopening.spec.1.text_ne_nil hv henclosing)
      (List.prefix_append _ _)
    simpa only [List.append_assoc] using hopening
  have hclosing' : v.Finds (some g) (g.closing.toList ++ front ++ (w ++ (back ++ rest))) (.closing g) := by
    refine Finds.insert hfree hne hw hregistered ?_ (hclosing.spec.1.text_ne_nil hv hregistered)
      (List.prefix_append _ _)
    simpa only [List.append_assoc] using hclosing
  have hcontent' : v.Scans (some g) .run (position + g.opening.length) inside
      (g.closing.toList ++ front ++ (w ++ (back ++ rest))) padding content := by
    refine Scans.insert_behind hfree hne hw hregistered hv ?_
    simpa only [List.append_assoc] using hcontent
  simp only [List.append_assoc] at hopening' hclosing' hcontent'
  refine .group ?_ ⟨padding, content, ?_, rfl⟩ ?_ hrun <;> simpa only [List.append_assoc]

/-- Blanks can be put at both ends of a text and at all edges of its tokens. -/
theorem Scans.insert (hv : v.Valid) (h : v.Scans enclosing b position text rest padding f)
    (hsplit : text = front ++ back) (hstart : b = .token → front ≠ []) (hedge : f.HasEdge position front back) :
    f.outline.ScansAs v enclosing b position (front ++ (w ++ back)) rest := by
  induction h generalizing front back with
  | stop enclosing position rest =>
    exact absurd (List.append_eq_nil_iff.mp hsplit.symm).1 (hstart rfl)
  | @blanks enclosing position run text rest padding f hpasses hblank htoken ih =>
    rw [← Outline.pushRun_of_blank (o := f.outline) hblank]
    refine scansAs_insert_of_run hfree hne hw henclosing hv hpasses htoken hsplit hedge ?_
    intro front back hsplit hfront hedge
    exact ih henclosing hsplit (fun _ => hfront) hedge
  | @value enclosing position lead word trail text rest padding f hpasses hlead hword htrail htoken ih =>
    rw [Forest.outline, ← Outline.pushRun_of_trimmed (o := f.outline) hlead hword htrail]
    refine scansAs_insert_of_run hfree hne hw henclosing hv hpasses htoken hsplit hedge ?_
    intro front back hsplit hfront hedge
    exact ih henclosing hsplit (fun _ => hfront) hedge
  | @operator enclosing position index token text rest padding f hfinds hrun ih =>
    have htoken : token.toList ≠ [] := hfinds.spec.1.text_ne_nil hv henclosing
    obtain ⟨middle, rfl, rfl, hmiddle⟩ : ∃ middle, front = token.toList ++ middle ∧ text = middle ++ back ∧
        f.HasEdge (position + token.toList.length) middle back := by
      have hpositive := List.length_pos_iff.mpr (hstart rfl)
      refine hedge.behind hsplit (hstart rfl) fun hp => ?_
      rw [String.length_toList]
      rcases Forest.mem_edges_operator.mp hp with heq | heq | hp
      · omega
      · omega
      · have hbounds := hrun.edges_bounds hp
        exact (Nat.eq_or_lt_of_le (by omega)).imp Eq.symm fun hlt => ⟨hlt, hp⟩
    rw [String.length_toList] at hmiddle
    have hoperator : v.Finds enclosing (token.toList ++ middle ++ (w ++ (back ++ rest))) (.operator index token) := by
      refine Finds.insert hfree hne hw henclosing ?_ htoken (List.prefix_append _ _)
      simpa only [List.append_assoc] using hfinds
    simp only [List.append_assoc] at hoperator ⊢
    exact .operator (by simpa only [List.append_assoc] using hoperator) (ih henclosing rfl (by simp) hmiddle)
  | @group enclosing position stop inner padding g inside text rest content f hopening hcontent hclosing hstop
      hrun ihc ihr =>
    have hregistered := mem_groupings_of_eq_some hopening.spec.1
    have hcases := hedge.group_cases hsplit (hstart rfl) (hclosing.spec.1.text_ne_nil hv hregistered) hstop
      (fun _ => hcontent.edges_bounds) fun p hp => (hrun.edges_bounds hp).1
    subst hstop
    rw [Forest.outline]
    rcases hcases with ⟨lead, trail, rfl, rfl, rfl, hinside⟩ | ⟨middle, rfl, rfl, hmiddle⟩
    · have hgroup := scansAs_insert_inside hfree hne hw henclosing hv hopening
        (ihc hregistered rfl (by simp) hinside) hclosing ⟨padding, f, hrun, rfl⟩
      simpa only [List.append_assoc] using hgroup
    · have hgroup := scansAs_insert_after hfree hne hw henclosing hv hopening hcontent hclosing
        (ihr henclosing rfl (by simp) hmiddle)
      simpa only [List.append_assoc] using hgroup

end

/-- Blanks can be put at both ends of a text that begins with a run, and at all edges of its tokens. -/
theorem Scans.insert_blanks (h : v.Scans enclosing .run position (front ++ back) rest padding f)
    (hfree : v.IsBlankFree) (hw : ∀ c ∈ w, Text.isBlank c = true)
    (henclosing : ∀ g, enclosing = some g → g ∈ v.groupings) (hv : v.Valid)
    (hedge : f.HasEdge position front back) :
    f.outline.ScansAs v enclosing .run position (front ++ (w ++ back)) rest := by
  by_cases hne : w = []
  · subst hne
    exact ⟨padding, f, h, rfl⟩
  · exact h.insert hfree hne hw henclosing hv rfl (by simp) hedge

end Vocabulary

end Bracketed
