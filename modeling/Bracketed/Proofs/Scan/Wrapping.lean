import Bracketed.Proofs.Scan.Interior

namespace Bracketed

/-- A search at the beginning of a text does not look behind it if none of what it looks for ends there. -/
theorem find?_isPrefixOf_append {α : Type} {text : α → List Char} {l : List α} {cs behind : List Char}
    (h : ∀ x ∈ l, text x <+: cs ++ behind → text x <+: cs) :
    l.find? (fun x => (text x).isPrefixOf (cs ++ behind)) = l.find? (fun x => (text x).isPrefixOf cs) := by
  induction l with
  | nil => rfl
  | cons x l ih =>
    have hx : (text x).isPrefixOf (cs ++ behind) = (text x).isPrefixOf cs := by
      rw [Bool.eq_iff_iff, List.isPrefixOf_iff_prefix, List.isPrefixOf_iff_prefix]
      exact ⟨h x List.mem_cons_self, fun hbegins => hbegins.trans (List.prefix_append _ _)⟩
    rw [List.find?_cons, List.find?_cons, hx, ih fun y hy => h y (List.mem_cons_of_mem x hy)]

namespace Vocabulary

/-- No registered token begins in `text` and ends in what stands behind it. -/
def Separates (v : Vocabulary) (text behind : List Char) : Prop :=
  ∀ t ∈ v.texts, ∀ i < text.length, t.toList <+: (text ++ behind).drop i → i + t.length ≤ text.length

variable {v : Vocabulary} {enclosing : Option Grouping} {text rest behind cs : List Char}

theorem separates_nil (text : List Char) : v.Separates text [] := by
  intro t _ i hi hbegins
  have hlength := hbegins.length_le
  rw [List.append_nil, List.length_drop, String.length_toList] at hlength
  omega

theorem Separates.suffix (h : v.Separates text behind) (hsuffix : cs <:+ text) : v.Separates cs behind := by
  obtain ⟨front, rfl⟩ := hsuffix
  intro t ht i hi hbegins
  have hlength := h t ht (front.length + i) (by rw [List.length_append]; omega) (by
    rwa [List.append_assoc, List.drop_length_add_append])
  rw [List.length_append] at hlength
  omega

theorem Separates.isPrefix (h : v.Separates cs behind) (hcs : cs ≠ []) {t : String} (ht : t ∈ v.texts)
    (hbegins : t.toList <+: cs ++ behind) : t.toList <+: cs := by
  have hlength := h t ht 0 (List.length_pos_iff.mpr hcs) hbegins
  rw [Nat.zero_add, ← String.length_toList] at hlength
  exact List.prefix_of_prefix_length_le hbegins (List.prefix_append _ _) hlength

/-- What stands behind a text plays no part in the token at its left end if no token crosses its right end. -/
theorem tokenAt_append {c : Char} (henclosing : ∀ g, enclosing = some g → g ∈ v.groupings)
    (hsep : v.Separates (c :: cs) behind) : v.tokenAt enclosing c (cs ++ behind) = v.tokenAt enclosing c cs := by
  have hbegins : ∀ t ∈ v.texts, t.toList <+: (c :: cs) ++ behind → t.toList <+: c :: cs :=
    fun t ht => hsep.isPrefix (List.cons_ne_nil c cs) ht
  have hopening : v.opening? ((c :: cs) ++ behind) = v.opening? (c :: cs) :=
    find?_isPrefixOf_append fun g hg => hbegins _ (opening_mem_texts hg)
  have hclosing : v.closing? ((c :: cs) ++ behind) = v.closing? (c :: cs) :=
    find?_isPrefixOf_append fun g hg => hbegins _ (closing_mem_texts hg)
  have hoperator : v.operator? ((c :: cs) ++ behind) = v.operator? (c :: cs) :=
    find?_isPrefixOf_append fun x hx => hbegins _ (mem_texts_of_operator (List.fst_mem_of_mem_zipIdx hx))
  have hinnermost : enclosing.filter (fun g => g.closing.toList.isPrefixOf ((c :: cs) ++ behind)) =
      enclosing.filter fun g => g.closing.toList.isPrefixOf (c :: cs) := by
    cases enclosing with
    | none => rfl
    | some g =>
      have hg := hbegins _ (closing_mem_texts (henclosing g rfl))
      have hiff : g.closing.toList.isPrefixOf ((c :: cs) ++ behind) = g.closing.toList.isPrefixOf (c :: cs) := by
        rw [Bool.eq_iff_iff, List.isPrefixOf_iff_prefix, List.isPrefixOf_iff_prefix]
        exact ⟨hg, fun h => h.trans (List.prefix_append _ _)⟩
      rw [Option.filter_some, Option.filter_some, hiff]
  rw [List.cons_append] at hopening hclosing hoperator hinnermost
  rw [tokenAt, tokenAt, hopening, hclosing, hoperator, hinnermost]

theorem Finds.extend {token : Token} (h : v.Finds enclosing cs token)
    (henclosing : ∀ g, enclosing = some g → g ∈ v.groupings) (hsep : v.Separates cs behind) :
    v.Finds enclosing (cs ++ behind) token := by
  obtain ⟨c, others, rfl, htoken⟩ := h
  exact ⟨c, others ++ behind, rfl, (tokenAt_append henclosing hsep).trans htoken⟩

/-- A token that is found outside all groups is found inside any group. -/
theorem Finds.enclose {token : Token} (h : v.Finds none cs token) {g : Grouping} (hg : g ∈ v.groupings) :
    v.Finds (some g) cs token := by
  rw [finds_iff_prevails] at h ⊢
  obtain ⟨hne, h⟩ := h
  have hfilter (hclosing : v.closing? cs = none) :
      (some g).filter (fun g => g.closing.toList.isPrefixOf cs) = none := by
    rw [Option.filter_eq_none_iff]
    rintro _ ⟨⟩
    exact List.find?_eq_none.mp hclosing g hg
  refine ⟨hne, ?_⟩
  cases token with
  | opening d => exact h
  | closing d => cases h.2
  | operator index text => exact ⟨h.1, hfilter h.2.2.1, h.2.2⟩
  | char c => exact ⟨h.1, hfilter h.2.2.1, h.2.2⟩

variable {run : List Char}

theorem Passes.extend (h : v.Passes enclosing run rest) (henclosing : ∀ g, enclosing = some g → g ∈ v.groupings)
    (hsep : v.Separates (run ++ rest) behind) : v.Passes enclosing run (rest ++ behind) := by
  induction run with
  | nil => trivial
  | cons c run ih =>
    have hfinds := h.1.extend henclosing hsep
    rw [List.cons_append, List.append_assoc] at hfinds
    exact ⟨hfinds, ih h.2 (hsep.suffix (List.suffix_cons c _))⟩

theorem Passes.enclose (h : v.Passes none run rest) {g : Grouping} (hg : g ∈ v.groupings) :
    v.Passes (some g) run rest := by
  induction run with
  | nil => trivial
  | cons c run ih => exact ⟨h.1.enclose hg, ih h.2⟩

variable {b : Boundary} {position padding : Nat} {f : Forest}

/-- More text behind what has been scanned makes no difference if no token reaches into it. -/
theorem Scans.extend (h : v.Scans enclosing b position text rest padding f)
    (henclosing : ∀ g, enclosing = some g → g ∈ v.groupings) (hsep : v.Separates (text ++ rest) behind) :
    v.Scans enclosing b position text (rest ++ behind) padding f := by
  induction h with
  | stop enclosing position rest => exact .stop enclosing position _
  | @blanks enclosing position run text rest padding f hpasses hblank htoken ih =>
    rw [List.append_assoc] at hsep
    have hrun := hpasses.extend henclosing hsep
    rw [List.append_assoc] at hrun
    exact .blanks hrun hblank (ih henclosing (hsep.suffix (List.suffix_append _ _)))
  | @value enclosing position lead word trail text rest padding f hpasses hlead hword htrail htoken ih =>
    rw [List.append_assoc] at hsep
    have hrun := hpasses.extend henclosing hsep
    rw [List.append_assoc] at hrun
    exact .value hrun hlead hword htrail (ih henclosing (hsep.suffix (List.suffix_append _ _)))
  | @operator enclosing position index token text rest padding f hfinds hrun ih =>
    rw [List.append_assoc] at hsep
    have hoperator := hfinds.extend henclosing hsep
    rw [List.append_assoc, List.append_assoc] at hoperator
    exact .operator hoperator (ih henclosing (hsep.suffix (List.suffix_append _ _)))
  | @group enclosing position stop inner padding g inside text rest content f hopening hcontent hclosing hstop
      hrun ihc ihr =>
    have hg : g ∈ v.groupings := hopening.spec.1
    have hregistered := mem_groupings_of_eq_some hg
    simp only [List.append_assoc] at hsep
    have hinside := hsep.suffix (List.suffix_append g.opening.toList _)
    have hend := hinside.suffix (List.suffix_append inside _)
    have hbehind := hend.suffix (List.suffix_append g.closing.toList _)
    have hopening' := hopening.extend henclosing hsep
    have hcontent' := ihc hregistered hinside
    have hclosing' := hclosing.extend hregistered hend
    simp only [List.append_assoc] at hopening' hcontent' hclosing'
    exact .group hopening' hcontent' hclosing' hstop (ihr henclosing hbehind)

/-- What is scanned outside all groups is scanned in the same way inside any group. -/
theorem Scans.enclose (h : v.Scans none b position text rest padding f) {g : Grouping} (hg : g ∈ v.groupings) :
    v.Scans (some g) b position text rest padding f := by
  generalize hnone : none = enclosing at h
  induction h with
  | stop enclosing position rest => exact .stop (some g) position rest
  | blanks hpasses hblank htoken ih =>
    subst hnone
    exact .blanks (hpasses.enclose hg) hblank (ih rfl)
  | value hpasses hlead hword htrail htoken ih =>
    subst hnone
    exact .value (hpasses.enclose hg) hlead hword htrail (ih rfl)
  | operator hfinds hrun ih =>
    subst hnone
    exact .operator (hfinds.enclose hg) (ih rfl)
  | group hopening hcontent hclosing hstop hrun ihc ihr =>
    subst hnone
    exact .group (hopening.enclose hg) hcontent hclosing hstop (ihr rfl)

/-- The same text further to the right is scanned as the same nodes further to the right. -/
theorem Scans.shift (h : v.Scans enclosing b position text rest padding f) (k : Nat) :
    v.Scans enclosing b (k + position) text rest padding (f.shift k) := by
  induction h with
  | stop enclosing position rest => exact .stop enclosing (k + position) rest
  | blanks hpasses hblank htoken ih =>
    rw [← Nat.add_assoc] at ih
    exact .blanks hpasses hblank ih
  | value hpasses hlead hword htrail htoken ih =>
    rw [← Nat.add_assoc] at ih
    simp only [Forest.shift, Span.shift, ← Nat.add_assoc]
    exact .value hpasses hlead hword htrail ih
  | operator hfinds hrun ih =>
    rw [← Nat.add_assoc] at ih
    simp only [Forest.shift, Span.shift, ← Nat.add_assoc]
    exact .operator hfinds ih
  | group hopening hcontent hclosing hstop hrun ihc ihr =>
    rw [← Nat.add_assoc] at ihc
    refine .group hopening ihc hclosing ?_ ihr
    rw [hstop]
    simp only [← Nat.add_assoc]

/-- The run in front of the first token may be empty. -/
theorem Scans.ofToken (h : v.Scans enclosing .token position text rest padding f) :
    v.Scans enclosing .run position text rest padding f := by
  have hrun : v.Scans enclosing .run position ([] ++ text) rest (([] : List Char).length + padding) f :=
    .blanks trivial (by simp) h
  rwa [List.nil_append, List.length_nil, Nat.zero_add] at hrun

/-- An end delimiter that is not taken for a start delimiter closes its group. -/
theorem finds_closing (hv : v.Valid) {g : Grouping} (hg : g ∈ v.groupings)
    (hend : v.opening? g.closing.toList = none) : v.Finds (some g) g.closing.toList (.closing g) := by
  rw [finds_iff_prevails]
  refine ⟨mt String.toList_eq_nil_iff.mp (hv.closing g hg), hend, ?_⟩
  rw [Option.filter_eq_some_iff]
  exact ⟨rfl, List.isPrefixOf_iff_prefix.mpr (List.prefix_refl _)⟩

/-- A text between the delimiters of a grouping is scanned as one group that holds what the text is scanned as, if
its start delimiter is the one that is found in front, no start delimiter is found in place of its end delimiter, and
no token reaches from the text into the end delimiter. -/
theorem Scans.wrap (hv : v.Valid) (h : v.Scans none .run 0 text [] padding f) {g : Grouping}
    (hfirst : v.opening? (g.opening.toList ++ (text ++ g.closing.toList)) = some g)
    (hend : v.opening? g.closing.toList = none) (hsep : v.Separates text g.closing.toList) :
    v.Scans none .run 0 (g.opening.toList ++ (text ++ g.closing.toList)) [] 0
      (.group ⟨g, ⟨0, g.opening.length + text.length + g.closing.length⟩, padding⟩ (f.shift g.opening.length)
        .nil) := by
  have hg : g ∈ v.groupings := List.mem_of_find?_eq_some hfirst
  have hopening : v.Finds none (g.opening.toList ++ (text ++ (g.closing.toList ++ ([] ++ [])))) (.opening g) := by
    rw [List.append_nil, List.append_nil, finds_iff_prevails]
    refine ⟨?_, hfirst⟩
    exact List.append_ne_nil_of_left_ne_nil (mt String.toList_eq_nil_iff.mp (hv.opening g hg)) _
  have hclosing : v.Finds (some g) (g.closing.toList ++ ([] ++ [])) (.closing g) := by
    rw [List.append_nil, List.append_nil]
    exact finds_closing hv hg hend
  have hcontent : v.Scans (some g) .run (0 + g.opening.length) text (g.closing.toList ++ ([] ++ [])) padding
      (f.shift g.opening.length) := by
    rw [← List.append_nil text] at hsep
    have hscans := ((h.extend (by simp) hsep).enclose hg).shift g.opening.length
    simpa only [Nat.add_zero, Nat.zero_add, List.append_nil, List.nil_append] using hscans
  have hgroup := Scans.group hopening hcontent hclosing rfl (Scans.stop none _ []).ofToken
  simpa only [List.append_nil, Nat.zero_add] using hgroup.ofToken

end Vocabulary

end Bracketed
