import Bracketed.Proofs.Outline
import Bracketed.Proofs.Scan.OfTokens
import Bracketed.Proofs.Tiling

namespace Bracketed

/-- The same span further to the right. -/
def Span.shift (s : Span) (k : Nat) : Span :=
  ⟨k + s.start, k + s.stop⟩

namespace Forest

/-- The same forest further to the right in a text. -/
def shift (k : Nat) : Forest → Forest
  | nil => nil
  | value v rest => value { v with span := v.span.shift k } (rest.shift k)
  | operator o rest => operator { o with span := o.span.shift k } (rest.shift k)
  | group e content rest => group { e with span := e.span.shift k } (content.shift k) (rest.shift k)

@[simp] theorem outline_shift (f : Forest) (k : Nat) : (f.shift k).outline = f.outline := by
  induction f with
  | nil => rfl
  | value v rest ih | operator o rest ih => rw [shift, outline, outline, ih]
  | group e content rest ihc ihr => rw [shift, outline, outline, ihc, ihr]

end Forest

section

variable {α : Type} {text : α → List Char} {l : List α} {kept cs : List Char}

/-- A search that fails in a text fails in all that the text begins with. -/
theorem find?_isPrefixOf_eq_none (hkept : kept <+: cs) (h : l.find? (fun x => (text x).isPrefixOf cs) = none) :
    l.find? (fun x => (text x).isPrefixOf kept) = none := by
  rw [List.find?_eq_none] at h ⊢
  intro x hx hbegins
  rw [List.isPrefixOf_iff_prefix] at hbegins
  exact h x hx (List.isPrefixOf_iff_prefix.mpr (hbegins.trans hkept))

/-- What is found in a text is found in all that the text begins with, if it fits into it. -/
theorem find?_isPrefixOf_eq_some {x : α} (hkept : kept <+: cs)
    (h : l.find? (fun x => (text x).isPrefixOf cs) = some x) (hx : text x <+: kept) :
    l.find? (fun x => (text x).isPrefixOf kept) = some x := by
  rw [List.find?_eq_some_iff_append] at h ⊢
  obtain ⟨_, before, behind, hsplit, hbefore⟩ := h
  refine ⟨List.isPrefixOf_iff_prefix.mpr hx, before, behind, hsplit, ?_⟩
  intro y hy
  have hnot := hbefore y hy
  rw [Bool.not_eq_true', ← Bool.not_eq_true, List.isPrefixOf_iff_prefix] at hnot ⊢
  exact fun hbegins => hnot (hbegins.trans hkept)

end

namespace Vocabulary

variable {v : Vocabulary} {enclosing : Option Grouping} {kept cs : List Char}

/-- What stands behind a token has no part in its being found. With less of it in view fewer tokens come into
question. -/
theorem Finds.cut {token : Token} (h : v.Finds enclosing cs token) (hkept : kept <+: cs)
    (hne : token.text ≠ []) (htext : token.text <+: kept) : v.Finds enclosing kept token := by
  rw [finds_iff_prevails] at h ⊢
  obtain ⟨_, h⟩ := h
  refine ⟨?_, ?_⟩
  · rintro rfl
    exact hne (List.prefix_nil.mp htext)
  · have hclosing (h : enclosing.filter (fun g => g.closing.toList.isPrefixOf cs) = none) :
        enclosing.filter (fun g => g.closing.toList.isPrefixOf kept) = none := by
      rw [Option.filter_eq_none_iff] at h ⊢
      intro g hg hbegins
      rw [List.isPrefixOf_iff_prefix] at hbegins
      exact h g hg (List.isPrefixOf_iff_prefix.mpr (hbegins.trans hkept))
    cases token with
    | opening g => exact find?_isPrefixOf_eq_some hkept h htext
    | closing g =>
      obtain ⟨hopening, henclosing⟩ := h
      rw [Option.filter_eq_some_iff] at henclosing
      refine ⟨find?_isPrefixOf_eq_none hkept hopening, ?_⟩
      rw [Option.filter_eq_some_iff]
      exact ⟨henclosing.1, List.isPrefixOf_iff_prefix.mpr htext⟩
    | operator index text =>
      obtain ⟨hopening, henclosing, hother, hoperator⟩ := h
      exact ⟨find?_isPrefixOf_eq_none hkept hopening, hclosing henclosing, find?_isPrefixOf_eq_none hkept hother,
        find?_isPrefixOf_eq_some hkept hoperator htext⟩
    | char c =>
      obtain ⟨hopening, henclosing, hother, hoperator, _⟩ := h
      obtain ⟨rest, rfl⟩ := htext
      exact ⟨find?_isPrefixOf_eq_none hkept hopening, hclosing henclosing, find?_isPrefixOf_eq_none hkept hother,
        find?_isPrefixOf_eq_none hkept hoperator, rfl⟩

/-- A token that closes no group is found outside all groups too. -/
theorem Finds.atRoot {token : Token} (h : v.Finds enclosing cs token) (hnot : ∀ g, token ≠ .closing g) :
    v.Finds none cs token := by
  rw [finds_iff_prevails] at h ⊢
  obtain ⟨hne, h⟩ := h
  refine ⟨hne, ?_⟩
  cases token with
  | opening g => exact h
  | closing g => exact absurd rfl (hnot g)
  | operator index text => exact ⟨h.1, rfl, h.2.2⟩
  | char c => exact ⟨h.1, rfl, h.2.2⟩

theorem Passes.cut {run : List Char} (h : v.Passes enclosing run cs) (hkept : kept <+: cs) :
    v.Passes enclosing run kept := by
  induction run with
  | nil => trivial
  | cons c run ih =>
    obtain ⟨hfinds, hpasses⟩ := h
    have hbegins : c :: (run ++ kept) <+: c :: (run ++ cs) :=
      List.cons_prefix_cons.mpr ⟨rfl, (List.prefix_append_right_inj run).mpr hkept⟩
    exact ⟨hfinds.cut hbegins (List.cons_ne_nil c []) ⟨run ++ kept, rfl⟩, ih hpasses⟩

theorem Passes.atRoot {run : List Char} (h : v.Passes enclosing run cs) : v.Passes none run cs := by
  induction run with
  | nil => trivial
  | cons c run ih => exact ⟨h.1.atRoot (by simp), ih h.2⟩

variable {b : Boundary} {position padding : Nat} {text rest : List Char} {f : Forest}

/-- What follows a text has no part in what the text is scanned as. -/
theorem Scans.cut (hv : v.Valid) (h : v.Scans enclosing b position text rest padding f) (hkept : kept <+: rest) :
    v.Scans enclosing b position text kept padding f := by
  induction h generalizing kept with
  | stop enclosing position rest => exact .stop enclosing position kept
  | @blanks enclosing position run text rest padding f hpasses hblank htoken ih =>
    exact .blanks (hpasses.cut ((List.prefix_append_right_inj text).mpr hkept)) hblank (ih hkept)
  | @value enclosing position lead word trail text rest padding f hpasses hlead hword htrail htoken ih =>
    exact .value (hpasses.cut ((List.prefix_append_right_inj text).mpr hkept)) hlead hword htrail (ih hkept)
  | @operator enclosing position index token text rest padding f hfinds hrun ih =>
    have hne : (Token.operator index token).text ≠ [] :=
      mt String.toList_eq_nil_iff.mp (hv.operator token (List.mem_of_getElem? hfinds.spec.1))
    have hbegins : token.toList ++ (text ++ kept) <+: token.toList ++ (text ++ rest) := by
      simpa only [List.prefix_append_right_inj] using hkept
    exact .operator (hfinds.cut hbegins hne (List.prefix_append _ _)) (ih hkept)
  | @group enclosing position stop inner padding g inside text rest content f hopening hcontent hclosing hstop
      hrun ihc ihr =>
    have hg : g ∈ v.groupings := hopening.spec.1
    have hopeningNe : (Token.opening g).text ≠ [] := mt String.toList_eq_nil_iff.mp (hv.opening g hg)
    have hclosingNe : (Token.closing g).text ≠ [] := mt String.toList_eq_nil_iff.mp (hv.closing g hg)
    have hbehind : g.closing.toList ++ (text ++ kept) <+: g.closing.toList ++ (text ++ rest) := by
      simpa only [List.prefix_append_right_inj] using hkept
    have hwhole : g.opening.toList ++ (inside ++ (g.closing.toList ++ (text ++ kept))) <+:
        g.opening.toList ++ (inside ++ (g.closing.toList ++ (text ++ rest))) := by
      simpa only [List.prefix_append_right_inj] using hkept
    exact .group (hopening.cut hwhole hopeningNe (List.prefix_append _ _)) (ihc hbehind)
      (hclosing.cut hbehind hclosingNe (List.prefix_append _ _)) hstop (ihr hkept)

/-- The group around a text has no part in what the text is scanned as. -/
theorem Scans.atRoot (h : v.Scans enclosing b position text rest padding f) :
    v.Scans none b position text rest padding f := by
  induction h with
  | stop enclosing position rest => exact .stop none position rest
  | blanks hpasses hblank htoken ih => exact .blanks hpasses.atRoot hblank ih
  | value hpasses hlead hword htrail htoken ih => exact .value hpasses.atRoot hlead hword htrail ih
  | operator hfinds hrun ih => exact .operator (hfinds.atRoot (by simp)) ih
  | group hopening hcontent hclosing hstop hrun ihc ihr =>
    exact .group (hopening.atRoot (by simp)) hcontent hclosing hstop ihr

/-- The place of a text shows in nothing but the spans of what it is scanned as. -/
theorem Scans.exists_shift {k : Nat} (h : v.Scans enclosing b (k + position) text rest padding f) :
    ∃ f' : Forest, f'.shift k = f ∧ v.Scans enclosing b position text rest padding f' := by
  generalize hstart : k + position = start at h
  induction h generalizing position with
  | stop enclosing start rest => exact ⟨.nil, rfl, .stop enclosing position rest⟩
  | blanks hpasses hblank htoken ih =>
    subst hstart
    obtain ⟨f', rfl, hscans⟩ := ih (Nat.add_assoc _ _ _).symm
    exact ⟨f', rfl, .blanks hpasses hblank hscans⟩
  | value hpasses hlead hword htrail htoken ih =>
    subst hstart
    obtain ⟨f', rfl, hscans⟩ := ih (Nat.add_assoc _ _ _).symm
    refine ⟨_, ?_, .value hpasses hlead hword htrail hscans⟩
    simp only [Forest.shift, Span.shift, Nat.add_assoc]
  | operator hfinds hrun ih =>
    subst hstart
    obtain ⟨f', rfl, hscans⟩ := ih (Nat.add_assoc _ _ _).symm
    refine ⟨_, ?_, .operator hfinds hscans⟩
    simp only [Forest.shift, Span.shift, Nat.add_assoc]
  | @group enclosing start stop inner padding g inside text rest content f hopening hcontent hclosing hstop
      hrun ihc ihr =>
    subst hstart
    have hnext : k + (position + g.opening.length + inside.length + g.closing.length) = stop := by
      simp only [hstop, Nat.add_assoc]
    obtain ⟨content', rfl, hinside⟩ := ihc (Nat.add_assoc _ _ _).symm
    obtain ⟨f', rfl, hscans⟩ := ihr hnext
    refine ⟨_, ?_, .group hopening hinside hclosing rfl hscans⟩
    rw [Forest.shift, Span.shift, hnext]

/-- Every group below siblings that are scanned from a text has its delimiters there, and what stands between
them is scanned as its content. -/
theorem Scans.exists_interior (h : v.Scans enclosing b position text rest padding f) {source : List Char}
    (hsource : RestAt source position (text ++ rest)) {all : List Node} {parent first : Nat}
    (hall : f.StandsIn all parent first) {id : Nat} {g : GroupNode} (hlo : first ≤ id)
    (hhi : id < first + f.size) (hg : all[id]? = some (.group g)) :
    ∃ (p : Nat) (d : Enclosure) (content : Forest) (inside after : List Char),
      g = d.node p id content ∧ content.StandsIn all id (id + 1) ∧
      d.span.Spells source (d.grouping.opening.toList ++ (inside ++ d.grouping.closing.toList)) ∧
      RestAt source (d.span.start + d.grouping.opening.length) (inside ++ after) ∧
      v.Scans (some d.grouping) .run (d.span.start + d.grouping.opening.length) inside after d.padding content := by
  induction h generalizing parent first with
  | stop enclosing position rest =>
    rw [Forest.size] at hhi
    omega
  | blanks hpasses hblank htoken ih =>
    rw [List.append_assoc] at hsource
    exact ih hsource.advance hall hlo hhi
  | @value enclosing position lead word trail text rest padding f hpasses hlead hword htrail htoken ih =>
    obtain ⟨hnode, hrest⟩ := hall.value
    rw [Forest.size] at hhi
    rw [List.append_assoc] at hsource
    rcases Nat.eq_or_lt_of_le hlo with rfl | hlt
    · rw [hnode] at hg
      cases hg
    · exact ih hsource.advance hrest hlt (by omega)
  | @operator enclosing position index token text rest padding f hfinds hrun ih =>
    obtain ⟨hnode, hrest⟩ := hall.operator
    rw [Forest.size] at hhi
    rw [List.append_assoc] at hsource
    have hafter := hsource.advance
    rw [String.length_toList] at hafter
    rcases Nat.eq_or_lt_of_le hlo with rfl | hlt
    · rw [hnode] at hg
      cases hg
    · exact ih hafter hrest hlt (by omega)
  | @group enclosing position stop inner padding d inside text rest content f hopening hcontent hclosing hstop
      hrun ihc ihr =>
    obtain ⟨hnode, hcontentIn, hrestIn⟩ := hall.group
    rw [Forest.size] at hhi
    obtain ⟨hspells, hafter, hbehind⟩ := hsource.group hstop
    rcases Nat.eq_or_lt_of_le hlo with rfl | hlt
    · rw [hnode] at hg
      cases hg
      exact ⟨parent, ⟨d, ⟨position, stop⟩, inner⟩, content, inside, _, rfl, hcontentIn, hspells, hafter, hcontent⟩
    · by_cases hinside : id < first + 1 + content.size
      · exact ihc hafter hcontentIn hlt hinside
      · exact ihr hbehind hrestIn (by omega) (by omega)

end Vocabulary

end Bracketed
