import Bracketed.Proofs.Matching
import Bracketed.Proofs.Scan.Shadowing

namespace Bracketed

/-- What a search finds is the first entry that passes. -/
theorem find?_eq_some_of_forall_lt {α : Type} {p : α → Bool} {l : List α} {i : Nat} {x : α} (hx : l[i]? = some x)
    (hp : p x = true) (hearlier : ∀ j < i, ∀ y, l[j]? = some y → ¬ p y = true) : l.find? p = some x := by
  obtain ⟨hi, rfl⟩ := List.getElem?_eq_some_iff.mp hx
  rw [List.find?_eq_some_iff_getElem]
  refine ⟨hp, i, hi, rfl, ?_⟩
  intro j hj
  rw [Bool.not_eq_true', ← Bool.not_eq_true]
  exact hearlier j hj _ (List.getElem?_eq_getElem (hj.trans hi))

namespace Grouping

/-- The text between the delimiters, with a space next to either of them. -/
def enclose (g : Grouping) (text : String) : String :=
  g.opening ++ " " ++ text ++ " " ++ g.closing

variable (g : Grouping) (text : String)

theorem toList_enclose :
    (g.enclose text).toList = g.opening.toList ++ (' ' :: (text.toList ++ [' ']) ++ g.closing.toList) := by
  simp [enclose, String.toList_append]

theorem length_enclose : (g.enclose text).length = g.opening.length + text.length + g.closing.length + 2 := by
  simp only [← String.length_toList, toList_enclose, List.length_append, List.length_cons, List.length_nil]
  omega

end Grouping

namespace Vocabulary

variable {v : Vocabulary} {enclosing : Option Grouping} {b : Boundary} {index position padding : Nat}
  {text rest cs : List Char} {f : Forest} {o : Outline} {t : String} {g : Grouping}

/-- An operator is found where its token stands, unless that is shadowed by what is tried before it. -/
theorem finds_operator (hv : v.Valid) (hindex : v.operators[index]? = some t)
    (hshadows : ¬ (v.takeOperators index).Shadows t) : v.Finds none t.toList (.operator index t) := by
  have hnot {s : String} (hs : s ∈ (v.takeOperators index).texts) : ¬ s.toList.isPrefixOf t.toList = true := by
    rw [List.isPrefixOf_iff_prefix]
    exact fun hbegins => hshadows ⟨s, hs, hbegins⟩
  rw [finds_iff_prevails]
  refine ⟨mt String.toList_eq_nil_iff.mp (hv.operator t (List.mem_of_getElem? hindex)), ?_, rfl, ?_, ?_⟩
  · exact List.find?_eq_none.mpr fun g hg => hnot (opening_mem_texts (v := v.takeOperators index) hg)
  · exact List.find?_eq_none.mpr fun g hg => hnot (closing_mem_texts (v := v.takeOperators index) hg)
  · have hentry : v.operators.zipIdx[index]? = some (t, index) := by
      rw [List.getElem?_zipIdx, hindex, Option.map_some, Nat.zero_add]
    refine find?_eq_some_of_forall_lt hentry (List.isPrefixOf_iff_prefix.mpr (List.prefix_refl _)) ?_
    rintro j hj ⟨s, place⟩ hs
    rw [List.getElem?_zipIdx, Option.map_eq_some_iff] at hs
    obtain ⟨_, hs, heq⟩ := hs
    cases heq
    rw [← List.getElem?_take_of_lt hj] at hs
    exact hnot (mem_texts_of_operator (v := v.takeOperators index) (List.mem_of_getElem? hs))

/-- A start delimiter is found where it stands, unless one that is tried before it stands there too. -/
theorem finds_opening (hv : v.Valid) (hindex : v.groupings[index]? = some g)
    (hearlier : ∀ d ∈ v.groupings.take index, ¬ d.opening.toList <+: g.opening.toList) :
    v.Finds none g.opening.toList (.opening g) := by
  rw [finds_iff_prevails]
  refine ⟨mt String.toList_eq_nil_iff.mp (hv.opening g (List.mem_of_getElem? hindex)), ?_⟩
  refine find?_eq_some_of_forall_lt hindex (List.isPrefixOf_iff_prefix.mpr (List.prefix_refl _)) ?_
  intro j hj d hd
  rw [← List.getElem?_take_of_lt hj] at hd
  rw [List.isPrefixOf_iff_prefix]
  exact hearlier d (List.mem_of_getElem? hd)

/-- No token that begins in a text with a blank at its end goes on behind it. -/
theorem IsBlankFree.separates_blank (hfree : v.IsBlankFree) {c : Char} (hc : Text.isBlank c = true)
    (text behind : List Char) : v.Separates (text ++ [c]) behind := by
  have hblank : ∀ d ∈ [c], Text.isBlank d = true := List.forall_mem_singleton.mpr hc
  intro t ht i hi hbegins
  rw [List.length_append, List.length_singleton] at hi ⊢
  rw [List.append_assoc] at hbegins
  by_cases hlast : i = text.length
  · rw [hlast, List.drop_left, List.singleton_append] at hbegins
    obtain rfl | hne := eq_or_ne t ""
    · rw [hlast]
      exact Nat.le_succ _
    · exact absurd (List.isPrefixOf_iff_prefix.mpr hbegins) (not_isPrefixOf_cons hne (hfree.head?_ne ht hc) behind)
  · have hlength := hfree.separates (List.cons_ne_nil c []) hblank text behind t ht i (by omega) hbegins
    omega

theorem scans_end (v : Vocabulary) (position : Nat) : v.Scans none .run position [] [] 0 .nil :=
  (Scans.stop none position []).ofToken

/-- What is scanned up to the beginning of a token and what is scanned from there on stand beside each other. -/
theorem Scans.append {later : List Char} {padding' : Nat} {f' : Forest}
    (h : v.Scans enclosing b position text (later ++ rest) padding f)
    (hlater : v.Scans enclosing .token (position + text.length) later rest padding' f') :
    v.Scans enclosing b position (text ++ later) rest (padding + padding') (f.append f') := by
  generalize hbehind : later ++ rest = behind at h
  induction h with
  | stop enclosing position behind =>
    rwa [Nat.zero_add, List.nil_append]
  | @blanks enclosing position run text behind padding f hpasses hblank htoken ih =>
    subst hbehind
    rw [List.length_append, ← Nat.add_assoc] at hlater
    rw [← List.append_assoc] at hpasses
    rw [List.append_assoc, Nat.add_assoc]
    exact .blanks hpasses hblank (ih hlater rfl)
  | @value enclosing position lead word trail text behind padding f hpasses hlead hword htrail htoken ih =>
    subst hbehind
    rw [List.length_append, ← Nat.add_assoc] at hlater
    rw [← List.append_assoc text] at hpasses
    rw [List.append_assoc _ text]
    exact .value hpasses hlead hword htrail (ih hlater rfl)
  | @operator enclosing position index token text behind padding f hfinds hrun ih =>
    subst hbehind
    rw [List.length_append, String.length_toList, ← Nat.add_assoc] at hlater
    rw [← List.append_assoc text] at hfinds
    rw [List.append_assoc]
    exact .operator hfinds (ih hlater rfl)
  | @group enclosing position stop inner padding g inside text behind content f hopening hcontent hclosing hstop
      hrun _ ihr =>
    subst hbehind
    have hnext : position + (g.opening.toList ++ (inside ++ (g.closing.toList ++ text))).length =
        stop + text.length := by
      simp only [List.length_append, String.length_toList]
      omega
    rw [hnext] at hlater
    rw [← List.append_assoc text] at hopening hcontent hclosing
    simp only [List.append_assoc]
    exact .group hopening hcontent hclosing hstop (ihr hlater rfl)

section

variable (hv : v.Valid) (hfree : v.IsBlankFree)
include hv hfree

/-- Behind a space a text is scanned as without it. -/
theorem scansAs_space_append (h : o.ScansAs v none .run position text rest) :
    o.ScansAs v none .run position (' ' :: text) rest := by
  obtain ⟨padding, f, hscans, rfl⟩ := h
  rw [← List.nil_append text] at hscans
  exact hscans.insert_blanks hfree Outline.isBlank_of_mem_space (by simp) hv (Or.inl rfl)

/-- With a space behind it a whole text is scanned as without it, whatever follows the space. -/
theorem scansAs_append_space (h : o.ScansAs v none .run position text []) (behind : List Char) :
    o.ScansAs v none .run position (text ++ [' ']) behind := by
  obtain ⟨padding, f, hscans, rfl⟩ := h
  rw [← List.append_nil text] at hscans
  obtain ⟨padding', f', hspaced, houtline⟩ :=
    hscans.insert_blanks hfree Outline.isBlank_of_mem_space (by simp) hv (Or.inr (Or.inl rfl))
  rw [List.append_nil] at hspaced
  have hsep : v.Separates (text ++ [' '] ++ []) behind := by
    rw [List.append_nil]
    exact hfree.separates_blank rfl text behind
  exact ⟨padding', f', hspaced.extend (by simp) hsep, houtline⟩

/-- A whole text, a space, and an operator that is not shadowed are scanned as what the text is scanned as and the
operator behind it, and then as what is scanned behind the operator. -/
theorem exists_scans_operator (hindex : v.operators[index]? = some t)
    (hshadows : ¬ (v.takeOperators index).Shadows t) (h : o.ScansAs v none .run 0 text []) {later : List Char}
    (hlater : v.Scans none .run (text.length + 1 + t.length) later [] padding f) (hsep : v.Separates t.toList later) :
    ∃ (padding' : Nat) (f' : Forest), f'.outline = o ∧ v.Scans none .run 0 (text ++ [' '] ++ (t.toList ++ later)) []
      (padding' + padding)
      (f'.append (.operator ⟨index, ⟨text.length + 1, text.length + 1 + t.length⟩⟩ f)) := by
  obtain ⟨padding', f', hfront, houtline⟩ := scansAs_append_space hv hfree h (t.toList ++ later ++ [])
  have hfinds := (finds_operator hv hindex hshadows).extend (by simp) hsep
  rw [← List.append_nil later] at hfinds
  have hposition : 0 + (text ++ [' ']).length = text.length + 1 := by
    rw [List.length_append, List.length_singleton, Nat.zero_add]
  refine ⟨padding', f', houtline, hfront.append ?_⟩
  rw [hposition]
  exact .operator hfinds hlater

/-- A whole text in a group of its own is scanned as a group that holds what the text is scanned as, and then as what is
scanned behind the group. No start delimiter that is tried before the grouping's own may stand in its place, and none in
place of its end delimiter. -/
theorem exists_scans_group (hindex : v.groupings[index]? = some g)
    (hearlier : ∀ d ∈ v.groupings.take index, ¬ d.opening.toList <+: g.opening.toList)
    (hend : ∀ d ∈ v.groupings, ¬ d.opening.toList <+: g.closing.toList) {inside : String}
    (h : o.ScansAs v none .run 0 inside.toList []) {later : List Char}
    (hlater : v.Scans none .run (position + (g.enclose inside).length) later [] padding f)
    (hsep : v.Separates g.closing.toList later) :
    ∃ (inner : Nat) (content : Forest), content.outline = o ∧
      v.Scans none .token position ((g.enclose inside).toList ++ later) [] padding
        (.group ⟨g, ⟨position, position + (g.enclose inside).length⟩, inner⟩ content f) := by
  have hg := List.mem_of_getElem? hindex
  have hnone : v.opening? g.closing.toList = none :=
    List.find?_eq_none.mpr fun d hd hbegins => hend d hd (List.isPrefixOf_iff_prefix.mp hbegins)
  have hclosing := (finds_closing hv hg hnone).extend (mem_groupings_of_eq_some hg) hsep
  have hopening := (finds_opening hv hindex hearlier).extend (by simp)
    (hfree.separates (List.cons_ne_nil ' ' []) Outline.isBlank_of_mem_space g.opening.toList
      (inside.toList ++ [' '] ++ (g.closing.toList ++ later)))
  obtain ⟨inner, content, hcontent, houtline⟩ :=
    scansAs_space_append hv hfree (scansAs_append_space hv hfree h (g.closing.toList ++ later))
  have hinside := (hcontent.enclose hg).shift (position + g.opening.length)
  rw [← List.append_nil later] at hclosing hopening hinside
  rw [Grouping.toList_enclose, List.append_assoc, List.append_assoc]
  refine ⟨inner, content.shift (position + g.opening.length), (content.outline_shift _).trans houtline,
    .group hopening hinside hclosing ?_ hlater⟩
  rw [Grouping.length_enclose]
  simp only [List.length_cons, List.length_append, List.length_nil, String.length_toList]
  omega

end

end Vocabulary

theorem Parser.operators_vocabulary {T : Type} {p : Parser T} {index : Nat} {op : Operator T}
    (h : p.operators[index]? = some op) : p.vocabulary.operators[index]? = some op.token := by
  rw [vocabulary, List.getElem?_map, h]
  rfl

end Bracketed
