import Bracketed.Proofs.Outline
import Bracketed.Proofs.Scan.Tokens
import Mathlib.Data.List.Pairwise

namespace Bracketed

theorem find?_eq_some_of_unique {α : Type} {p : α → Bool} {l : List α} {x : α} (hx : x ∈ l) (hp : p x = true)
    (hunique : ∀ y ∈ l, p y = true → y = x) : l.find? p = some x := by
  cases hfind : l.find? p with
  | none => exact absurd hp (List.find?_eq_none.mp hfind x hx)
  | some y => rw [hunique y (List.mem_of_find?_eq_some hfind) (List.find?_some hfind)]

instance : Std.Symm Text.Incomparable where
  symm _ _ h := ⟨h.2, h.1⟩

/-- Of two texts neither of which begins with the other one, only one can stand at a place. -/
theorem Text.Incomparable.not_isPrefixOf {s t : String} (h : Text.Incomparable s t) {cs : List Char}
    (hs : s.toList <+: cs) : ¬ t.toList.isPrefixOf cs = true := by
  rw [List.isPrefixOf_iff_prefix]
  intro ht
  rcases List.prefix_or_prefix_of_prefix hs ht with hst | hts
  · exact h.1 hst
  · exact h.2 hts

theorem ne_nil_of_prefix_of_ne_empty {t : String} (hne : t ≠ "") {cs : List Char} (h : t.toList <+: cs) : cs ≠ [] := by
  rintro rfl
  exact hne (String.toList_eq_nil_iff.mp (List.prefix_nil.mp h))

theorem not_isPrefixOf_cons {t : String} {c : Char} (hne : t ≠ "") (hhead : t.toList.head? ≠ some c)
    (rest : List Char) : ¬ t.toList.isPrefixOf (c :: rest) = true := by
  cases ht : t.toList with
  | nil => exact absurd (String.toList_eq_nil_iff.mp ht) hne
  | cons d cs =>
    rw [ht, List.head?_cons] at hhead
    rw [List.isPrefixOf_iff_prefix, List.cons_prefix_cons]
    exact fun h => hhead (congrArg some h.1)

namespace Vocabulary

variable {v : Vocabulary} {enclosing : Option Grouping} {cs : List Char}

theorem operator?_eq_none_iff : v.operator? cs = none ↔ ∀ t ∈ v.operators, ¬ t.toList.isPrefixOf cs = true := by
  rw [operator?, List.find?_eq_none]
  constructor
  · intro h t ht
    obtain ⟨index, hindex⟩ := List.mem_iff_getElem?.mp ht
    exact h (t, index) (List.mk_mem_zipIdx_iff_getElem?.mpr hindex)
  · rintro h ⟨t, index⟩ hmem
    exact h t (List.mem_of_getElem? (List.mk_mem_zipIdx_iff_getElem?.mp hmem))

/-- A character that begins no token is read as such. -/
theorem finds_char (hne : ∀ t ∈ v.texts, t ≠ "") (henclosing : ∀ g, enclosing = some g → g ∈ v.groupings)
    {c : Char} (hc : ∀ t ∈ v.texts, t.toList.head? ≠ some c) (rest : List Char) :
    v.Finds enclosing (c :: rest) (.char c) := by
  have hnone {t : String} (ht : t ∈ v.texts) : ¬ t.toList.isPrefixOf (c :: rest) = true :=
    not_isPrefixOf_cons (hne t ht) (hc t ht) rest
  rw [finds_iff_prevails]
  refine ⟨List.cons_ne_nil c rest, ?_, ?_, ?_, ?_, rfl⟩
  · exact List.find?_eq_none.mpr fun g hg => hnone (opening_mem_texts hg)
  · exact Option.filter_eq_none_iff.mpr fun g hg => hnone (closing_mem_texts (henclosing g hg))
  · exact List.find?_eq_none.mpr fun g hg => hnone (closing_mem_texts hg)
  · exact operator?_eq_none_iff.mpr fun t ht => hnone (mem_texts_of_operator ht)

namespace PrefixFree

theorem valid (hv : v.PrefixFree) : v.Valid where
  operator := fun t ht => hv.ne_empty t (mem_texts_of_operator ht)
  opening := fun _ hg => hv.ne_empty _ (opening_mem_texts hg)
  closing := fun _ hg => hv.ne_empty _ (closing_mem_texts hg)

theorem opening_closing (hv : v.PrefixFree) {g d : Grouping} (hg : g ∈ v.groupings) (hd : d ∈ v.groupings) :
    Text.Incomparable g.opening d.closing := by
  have hdelimiters := (List.pairwise_append.mp hv.incomparable).2.1
  exact (List.pairwise_append.mp hdelimiters).2.2 _ (List.mem_map_of_mem hg) _ (List.mem_map_of_mem hd)

theorem operator_opening (hv : v.PrefixFree) {t : String} {g : Grouping} (ht : t ∈ v.operators)
    (hg : g ∈ v.groupings) : Text.Incomparable t g.opening :=
  (List.pairwise_append.mp hv.incomparable).2.2 _ ht _ (List.mem_append_left _ (List.mem_map_of_mem hg))

theorem operator_closing (hv : v.PrefixFree) {t : String} {g : Grouping} (ht : t ∈ v.operators)
    (hg : g ∈ v.groupings) : Text.Incomparable t g.closing :=
  (List.pairwise_append.mp hv.incomparable).2.2 _ ht _ (List.mem_append_right _ (List.mem_map_of_mem hg))

theorem eq_of_opening (hv : v.PrefixFree) {g d : Grouping} (hg : g ∈ v.groupings) (hd : d ∈ v.groupings)
    (hbegins : g.opening.toList <+: cs) (hstands : d.opening.toList.isPrefixOf cs = true) : d = g := by
  by_contra hne
  have hdelimiters := (List.pairwise_append.mp hv.incomparable).2.1
  have hopenings := List.pairwise_map.mp (List.pairwise_append.mp hdelimiters).1
  have : Std.Symm fun a b : Grouping => Text.Incomparable a.opening b.opening := ⟨fun _ _ h => symm h⟩
  exact (hopenings.forall hg hd (Ne.symm hne)).not_isPrefixOf hbegins hstands

theorem eq_of_operator (hv : v.PrefixFree) {i j : Nat} {s t : String} (hs : v.operators[i]? = some s)
    (ht : v.operators[j]? = some t) (hbegins : s.toList <+: cs) (hstands : t.toList.isPrefixOf cs = true) :
    j = i := by
  obtain ⟨hi, rfl⟩ := List.getElem?_eq_some_iff.mp hs
  obtain ⟨hj, rfl⟩ := List.getElem?_eq_some_iff.mp ht
  have hoperators := List.pairwise_iff_getElem.mp (List.pairwise_append.mp hv.incomparable).1
  rcases Nat.lt_trichotomy i j with hlt | rfl | hlt
  · exact absurd hstands ((hoperators i j hi hj hlt).not_isPrefixOf hbegins)
  · rfl
  · exact absurd hstands ((symm (hoperators j i hj hi hlt)).not_isPrefixOf hbegins)

theorem finds_opening (hv : v.PrefixFree) {g : Grouping} (hg : g ∈ v.groupings)
    (hbegins : g.opening.toList <+: cs) : v.Finds enclosing cs (.opening g) := by
  rw [finds_iff_prevails]
  exact ⟨ne_nil_of_prefix_of_ne_empty (hv.ne_empty _ (opening_mem_texts hg)) hbegins,
    find?_eq_some_of_unique hg (List.isPrefixOf_iff_prefix.mpr hbegins)
      fun d hd hstands => hv.eq_of_opening hg hd hbegins hstands⟩

theorem finds_closing (hv : v.PrefixFree) {g : Grouping} (hg : g ∈ v.groupings)
    (hbegins : g.closing.toList <+: cs) : v.Finds (some g) cs (.closing g) := by
  rw [finds_iff_prevails]
  refine ⟨ne_nil_of_prefix_of_ne_empty (hv.ne_empty _ (closing_mem_texts hg)) hbegins, ?_, ?_⟩
  · exact List.find?_eq_none.mpr fun d hd => (symm (hv.opening_closing hd hg)).not_isPrefixOf hbegins
  · rw [Option.filter_eq_some_iff]
    exact ⟨rfl, List.isPrefixOf_iff_prefix.mpr hbegins⟩

theorem finds_operator (hv : v.PrefixFree) (henclosing : ∀ g, enclosing = some g → g ∈ v.groupings)
    {index : Nat} {token : String} (hindex : v.operators[index]? = some token)
    (hbegins : token.toList <+: cs) : v.Finds enclosing cs (.operator index token) := by
  have htoken : token ∈ v.operators := List.mem_of_getElem? hindex
  rw [finds_iff_prevails]
  refine ⟨ne_nil_of_prefix_of_ne_empty (hv.ne_empty _ (mem_texts_of_operator htoken)) hbegins, ?_, ?_, ?_, ?_⟩
  · exact List.find?_eq_none.mpr fun g hg => (hv.operator_opening htoken hg).not_isPrefixOf hbegins
  · exact Option.filter_eq_none_iff.mpr fun g hg =>
      (hv.operator_closing htoken (henclosing g hg)).not_isPrefixOf hbegins
  · exact List.find?_eq_none.mpr fun g hg => (hv.operator_closing htoken hg).not_isPrefixOf hbegins
  · refine find?_eq_some_of_unique (List.mk_mem_zipIdx_iff_getElem?.mpr hindex)
      (List.isPrefixOf_iff_prefix.mpr hbegins) ?_
    rintro ⟨other, place⟩ hmem hstands
    rw [List.mk_mem_zipIdx_iff_getElem?] at hmem
    obtain rfl := hv.eq_of_operator hindex hmem hbegins hstands
    rw [hindex] at hmem
    rw [Option.some.inj hmem]

end PrefixFree

/-- Characters that begin no token are read as such, whatever follows them. -/
theorem passes_of_forall (hne : ∀ t ∈ v.texts, t ≠ "") (henclosing : ∀ g, enclosing = some g → g ∈ v.groupings)
    {run : List Char} (hrun : ∀ c ∈ run, ∀ t ∈ v.texts, t.toList.head? ≠ some c) (after : List Char) :
    v.Passes enclosing run after := by
  induction run with
  | nil => trivial
  | cons c run ih =>
    exact ⟨finds_char hne henclosing (hrun c List.mem_cons_self) _,
      ih fun d hd => hrun d (List.mem_cons_of_mem c hd)⟩

/-- No token begins with a blank. -/
theorem IsBlankFree.head?_ne (hfree : v.IsBlankFree) {t : String} (ht : t ∈ v.texts) {c : Char}
    (hc : Text.isBlank c = true) : t.toList.head? ≠ some c := by
  intro hhead
  have hnot := hfree t ht c (List.mem_of_head? hhead)
  rw [hc] at hnot
  cases hnot

/-- Blanks are read as characters wherever they stand. -/
theorem IsBlankFree.passes (hfree : v.IsBlankFree) (hne : ∀ t ∈ v.texts, t ≠ "")
    (henclosing : ∀ g, enclosing = some g → g ∈ v.groupings) {run : List Char}
    (hrun : ∀ c ∈ run, Text.isBlank c = true) (after : List Char) : v.Passes enclosing run after :=
  passes_of_forall hne henclosing (fun c hc _ ht => hfree.head?_ne ht (hrun c hc)) after

theorem PrefixFree.isBlankFree (hv : v.PrefixFree) : v.IsBlankFree :=
  hv.not_blank

end Vocabulary

namespace Outline

/-- The text is scanned as siblings of which the outline remains. -/
def ScansAs (v : Vocabulary) (enclosing : Option Grouping) (b : Boundary) (position : Nat)
    (text rest : List Char) (o : Outline) : Prop :=
  ∃ padding f, v.Scans enclosing b position text rest padding f ∧ f.outline = o

section

variable {v : Vocabulary} {enclosing : Option Grouping} {position : Nat} {text rest : List Char} {o : Outline}

theorem ScansAs.blanks {run : List Char} (hpasses : v.Passes enclosing run (text ++ rest))
    (hblank : ∀ c ∈ run, Text.isBlank c = true)
    (h : ScansAs v enclosing .token (position + run.length) text rest o) :
    ScansAs v enclosing .run position (run ++ text) rest o := by
  obtain ⟨padding, f, hscans, houtline⟩ := h
  exact ⟨_, f, .blanks hpasses hblank hscans, houtline⟩

theorem ScansAs.value {lead trail : List Char} {word : String}
    (hpasses : v.Passes enclosing (lead ++ (word.toList ++ trail)) (text ++ rest))
    (hlead : ∀ c ∈ lead, Text.isBlank c = true) (hword : Text.Trimmed word.toList)
    (htrail : ∀ c ∈ trail, Text.isBlank c = true)
    (h : ScansAs v enclosing .token (position + (lead ++ (word.toList ++ trail)).length) text rest o) :
    ScansAs v enclosing .run position (lead ++ (word.toList ++ trail) ++ text) rest (.value word o) := by
  obtain ⟨padding, f, hscans, rfl⟩ := h
  refine ⟨_, _, .value hpasses hlead hword htrail hscans, ?_⟩
  rw [Forest.outline, String.ofList_toList]

theorem ScansAs.operator {index : Nat} {token : String}
    (hfinds : v.Finds enclosing (token.toList ++ (text ++ rest)) (.operator index token))
    (h : ScansAs v enclosing .run (position + token.length) text rest o) :
    ScansAs v enclosing .token position (token.toList ++ text) rest (.operator index o) := by
  obtain ⟨padding, f, hscans, rfl⟩ := h
  exact ⟨_, _, .operator hfinds hscans, rfl⟩

theorem ScansAs.group {g : Grouping} {inside : List Char} {content : Outline}
    (hopening : v.Finds enclosing (g.opening.toList ++ (inside ++ (g.closing.toList ++ (text ++ rest)))) (.opening g))
    (hcontent : ScansAs v (some g) .run (position + g.opening.length) inside
      (g.closing.toList ++ (text ++ rest)) content)
    (hclosing : v.Finds (some g) (g.closing.toList ++ (text ++ rest)) (.closing g))
    (h : ScansAs v enclosing .run (position + g.opening.length + inside.length + g.closing.length) text rest o) :
    ScansAs v enclosing .token position (g.opening.toList ++ (inside ++ (g.closing.toList ++ text))) rest
      (.group g content o) := by
  obtain ⟨inner, c, hinside, rfl⟩ := hcontent
  obtain ⟨padding, f, hscans, rfl⟩ := h
  exact ⟨_, _, .group hopening hinside hclosing rfl hscans, rfl⟩

end

variable {v : Vocabulary}

theorem isBlank_of_mem_space : ∀ c ∈ [' '], Text.isBlank c = true := by
  intro c hc
  obtain rfl := List.mem_singleton.mp hc
  rfl

/-- What separates an item from the ones behind it, if there are any. -/
def gap (rest : Outline) : List Char :=
  if rest = .nil then [] else [' ']

theorem isBlank_of_mem_gap (rest : Outline) : ∀ c ∈ rest.gap, Text.isBlank c = true := by
  intro c hc
  rw [gap] at hc
  split at hc
  · cases hc
  · exact isBlank_of_mem_space c hc

theorem toList_intercalate_items (item : String) (rest : Outline) :
    (" ".intercalate (item :: rest.items v)).toList = item.toList ++ (rest.gap ++ (rest.render v).toList) := by
  have hcons (next : String) (others : List String) :
      (" ".intercalate (item :: next :: others)).toList =
        item.toList ++ ([' '] ++ (" ".intercalate (next :: others)).toList) := by
    rw [String.intercalate_cons_cons, String.toList_append, String.toList_append, List.append_assoc]
    rfl
  cases rest with
  | nil =>
    rw [gap, if_pos rfl, render, items, List.nil_append]
    simp
  | value text rest => exact hcons _ _
  | operator index rest => exact hcons _ _
  | group g content rest => exact hcons _ _

/-- Wherever the rendering stands, and whatever blanks follow it, it is scanned as the outline from its first
token on. -/
def ScansFromToken (v : Vocabulary) (o : Outline) : Prop :=
  ∀ enclosing position trail rest, (∀ g, enclosing = some g → g ∈ v.groupings) →
    (∀ c ∈ trail, Text.isBlank c = true) →
    ScansAs v enclosing .token position ((o.render v).toList ++ trail) rest o

/-- Wherever the rendering stands, and whatever blanks are around it, it is scanned as the outline from the
beginning of its first run on. -/
def ScansFromRun (v : Vocabulary) (o : Outline) : Prop :=
  ∀ enclosing position lead trail rest, (∀ g, enclosing = some g → g ∈ v.groupings) →
    (∀ c ∈ lead, Text.isBlank c = true) → (∀ c ∈ trail, Text.isBlank c = true) →
    ScansAs v enclosing .run position (lead ++ ((o.render v).toList ++ trail)) rest o

theorem ScansFromToken.scansFromRun (hv : v.PrefixFree) {o : Outline} (h : ScansFromToken v o) :
    ScansFromRun v o := by
  intro enclosing position lead trail rest henclosing hlead htrail
  exact .blanks (hv.isBlankFree.passes hv.ne_empty henclosing hlead _) hlead (h enclosing _ trail rest henclosing htrail)

theorem scansFromRun_nil (hv : v.PrefixFree) : ScansFromRun v nil := by
  intro enclosing position lead trail rest henclosing hlead htrail
  have hrun : ∀ c ∈ lead ++ trail, Text.isBlank c = true := by
    intro c hc
    rcases List.mem_append.mp hc with hc | hc
    · exact hlead c hc
    · exact htrail c hc
  have hscans : ScansAs v enclosing .run position (lead ++ trail ++ []) rest nil :=
    .blanks (hv.isBlankFree.passes hv.ne_empty henclosing hrun _) hrun ⟨0, .nil, .stop enclosing _ rest, rfl⟩
  rwa [List.append_nil] at hscans

/-- The space behind a value belongs to its run, so that what follows the value is scanned from its first token
on. -/
theorem scansFromRun_value (hv : v.PrefixFree) {word : String} {o : Outline} (hword : Text.Trimmed word.toList)
    (hfree : ∀ c ∈ word.toList, ∀ t ∈ v.texts, t.toList.head? ≠ some c)
    (ho : o ≠ nil → ScansFromToken v o) : ScansFromRun v (value word o) := by
  intro enclosing position lead trail rest henclosing hlead htrail
  have hpasses {trail : List Char} (htrail : ∀ c ∈ trail, Text.isBlank c = true) (after : List Char) :
      v.Passes enclosing (lead ++ (word.toList ++ trail)) after := by
    refine Vocabulary.passes_of_forall hv.ne_empty henclosing ?_ after
    intro c hc t ht
    rcases List.mem_append.mp hc with hc | hc
    · exact hv.isBlankFree.head?_ne ht (hlead c hc)
    · rcases List.mem_append.mp hc with hc | hc
      · exact hfree c hc t ht
      · exact hv.isBlankFree.head?_ne ht (htrail c hc)
  rw [render, items, toList_intercalate_items]
  by_cases hnil : o = .nil
  · subst hnil
    have hscans : ScansAs v enclosing .run position (lead ++ (word.toList ++ trail) ++ []) rest (value word nil) :=
      .value (hpasses htrail _) hlead hword htrail ⟨0, .nil, .stop enclosing _ rest, rfl⟩
    simpa [gap, render, items] using hscans
  · have hscans := ho hnil enclosing (position + (lead ++ (word.toList ++ [' '])).length) trail rest henclosing
      htrail
    rw [gap, if_neg hnil]
    simpa only [List.append_assoc] using
      ScansAs.value (hpasses isBlank_of_mem_space _) hlead hword isBlank_of_mem_space hscans

theorem scansFromToken_operator (hv : v.PrefixFree) {index : Nat} {o : Outline}
    (hindex : index < v.operators.length) (ho : ScansFromRun v o) : ScansFromToken v (operator index o) := by
  intro enclosing position trail rest henclosing htrail
  have htoken : v.operators[index]? = some (v.operators.getD index "") := by
    rw [List.getD_eq_getElem?_getD, List.getElem?_eq_getElem hindex, Option.getD_some]
  have hscans := ho enclosing (position + (v.operators.getD index "").length) o.gap trail rest henclosing
    o.isBlank_of_mem_gap htrail
  rw [render, items, toList_intercalate_items, List.append_assoc, List.append_assoc]
  exact .operator (hv.finds_operator henclosing htoken (List.prefix_append _ _)) hscans

theorem scansFromToken_group (hv : v.PrefixFree) {g : Grouping} {content o : Outline} (hg : g ∈ v.groupings)
    (hcontent : ScansFromRun v content) (ho : ScansFromRun v o) : ScansFromToken v (group g content o) := by
  intro enclosing position trail rest henclosing htrail
  have hregistered := Vocabulary.mem_groupings_of_eq_some hg
  have hinside := hcontent (some g) (position + g.opening.length) [' '] [' ']
    (g.closing.toList ++ (o.gap ++ ((o.render v).toList ++ trail) ++ rest)) hregistered isBlank_of_mem_space
    isBlank_of_mem_space
  have hbehind := ho enclosing (position + g.opening.length +
    ([' '] ++ ((content.render v).toList ++ [' '])).length + g.closing.length) o.gap trail rest henclosing
    o.isBlank_of_mem_gap htrail
  have hscans := ScansAs.group (hv.finds_opening hg (List.prefix_append _ _)) hinside
    (hv.finds_closing hg (List.prefix_append _ _)) hbehind
  rw [render, items, toList_intercalate_items]
  simpa [String.toList_append, List.append_assoc, render] using hscans

/-- Outlines that are written out are scanned as themselves. -/
theorem scansFromRun_and_scansFromToken (hv : v.PrefixFree) {o : Outline} (ho : o.Fits v) :
    ScansFromRun v o ∧ (o ≠ nil → ¬ o.beginsWithValue → ScansFromToken v o) := by
  induction o with
  | nil => exact ⟨scansFromRun_nil hv, fun hne => absurd rfl hne⟩
  | value word rest ih =>
    obtain ⟨hword, hfree, hbegins, hrest⟩ := ho
    have hvalue := scansFromRun_value hv hword hfree fun hne => (ih hrest).2 hne hbegins
    exact ⟨hvalue, fun _ hnot => absurd trivial hnot⟩
  | operator index rest ih =>
    obtain ⟨hindex, hrest⟩ := ho
    have hoperator := scansFromToken_operator hv hindex (ih hrest).1
    exact ⟨hoperator.scansFromRun hv, fun _ _ => hoperator⟩
  | group g content rest ihc ihr =>
    obtain ⟨hg, hcontent, hrest⟩ := ho
    have hgroup := scansFromToken_group hv hg (ihc hcontent).1 (ihr hrest).1
    exact ⟨hgroup.scansFromRun hv, fun _ _ => hgroup⟩

end Outline

namespace Parser

variable {T : Type}

/-- Reading undoes writing. If no token begins with another one, an outline that fits the vocabulary is what
can be read from the nodes of its rendering. -/
theorem parse_render {p : Parser T} (hv : p.vocabulary.PrefixFree) {o : Outline} (ho : o.Fits p.vocabulary) :
    ∃ e, p.parse (o.render p.vocabulary) = .ok e ∧ o.IsReadFrom e.nodes e.root.children := by
  obtain ⟨hrun, _⟩ := Outline.scansFromRun_and_scansFromToken hv ho
  have hscans := hrun none 0 [] [] [] (by nofun) (by nofun) (by nofun)
  rw [List.append_nil, List.nil_append] at hscans
  obtain ⟨padding, f, hscans, rfl⟩ := hscans
  exact ⟨_, parse_of_scans hv.valid hscans, (Expression.content_standsIn _).isReadFrom⟩

theorem texts_bracketing : bracketing.vocabulary.texts = ["~", "-", "(", ")"] := rfl

theorem prefixFree_bracketing : bracketing.vocabulary.PrefixFree where
  ne_empty := by
    rw [texts_bracketing]
    simp
  not_blank := by
    rw [texts_bracketing]
    simp only [List.forall_mem_cons, String.reduceToList, List.not_mem_nil, false_implies, implies_true, and_true]
    exact ⟨rfl, rfl, rfl, rfl⟩
  incomparable := by
    rw [texts_bracketing]
    simp [Text.Incomparable]

/-- An outline with operators that miss operands, and with nothing in its inner group. -/
def sketched : Outline :=
  .value "a" <| .operator 1 <| .group ⟨"(", ")"⟩ (.group ⟨"(", ")"⟩ .nil .nil) <| .operator 0 .nil

theorem render_sketched : sketched.render bracketing.vocabulary = "a - ( (  ) ) ~" := by
  with_unfolding_all rfl

theorem fits_sketched : sketched.Fits bracketing.vocabulary := by
  have htrimmed : Text.Trimmed "a".toList := by
    refine ⟨by simp, ?_, ?_⟩
    · rintro c ⟨⟩
      rfl
    · rintro c ⟨⟩
      rfl
  have hfree : ∀ c ∈ "a".toList, ∀ t ∈ bracketing.vocabulary.texts, t.toList.head? ≠ some c := by
    rw [texts_bracketing]
    simp
  have hgrouping : (⟨"(", ")"⟩ : Grouping) ∈ bracketing.vocabulary.groupings := List.mem_singleton.mpr rfl
  have hoperators : bracketing.vocabulary.operators.length = 2 := rfl
  rw [sketched]
  refine ⟨htrimmed, hfree, not_false, ?_, hgrouping, ⟨hgrouping, trivial, trivial⟩, ?_, trivial⟩
  · omega
  · omega

theorem parse_render_bracketing :
    bracketing.vocabulary.PrefixFree ∧ sketched.Fits bracketing.vocabulary ∧
      ∃ e, bracketing.parse "a - ( (  ) ) ~" = .ok e ∧ sketched.IsReadFrom e.nodes e.root.children := by
  rw [← render_sketched]
  exact ⟨prefixFree_bracketing, fits_sketched, parse_render prefixFree_bracketing fits_sketched⟩

end Parser

end Bracketed
