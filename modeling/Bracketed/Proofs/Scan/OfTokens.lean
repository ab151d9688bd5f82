import Bracketed.Forest.OfTokens
import Bracketed.Proofs.Scan

namespace Bracketed

theorem Token.length_operator (index : Nat) (text : String) : (operator index text).length = text.length :=
  String.length_toList

theorem Token.length_closing (g : Grouping) : (closing g).length = g.closing.length :=
  String.length_toList

theorem Token.length_opening (g : Grouping) : (opening g).length = g.opening.length :=
  String.length_toList

theorem Token.IsIn.text_ne_nil {v : Vocabulary} (hv : v.Valid) {enclosing : Option Grouping}
    (henclosing : ∀ g, enclosing = some g → g ∈ v.groupings) {token : Token} (h : token.IsIn v enclosing) :
    token.text ≠ [] := by
  cases token with
  | opening g => exact mt String.toList_eq_nil_iff.mp (hv.opening g h)
  | closing g => exact mt String.toList_eq_nil_iff.mp (hv.closing g (henclosing g h))
  | operator index text => exact mt String.toList_eq_nil_iff.mp (hv.operator text (List.mem_of_getElem? h))
  | char c => exact List.cons_ne_nil c []

theorem Vocabulary.mem_groupings_of_eq_some {v : Vocabulary} {g : Grouping} (hg : g ∈ v.groupings) (d : Grouping)
    (hd : some g = some d) : d ∈ v.groupings := by
  cases hd
  exact hg

/-- The innermost group that is open has registered delimiters if all of them do. -/
theorem Vocabulary.mem_groupings_of_head? {v : Vocabulary} {groups : List (Nat × Grouping)}
    (hgroups : ∀ x ∈ groups, x.2 ∈ v.groupings) (g : Grouping) (hg : groups.head?.map Prod.snd = some g) :
    g ∈ v.groupings := by
  obtain ⟨x, hx, rfl⟩ := Option.map_eq_some_iff.mp hg
  exact hgroups x (List.mem_of_head? hx)

/-- Only groups with registered delimiters are opened. -/
theorem Vocabulary.forall_mem_openAfter {v : Vocabulary} {groups : List (Nat × Grouping)}
    (hgroups : ∀ x ∈ groups, x.2 ∈ v.groupings) {enclosing : Option Grouping} {token : Token}
    (hin : token.IsIn v enclosing) (position : Nat) :
    ∀ x ∈ openAfter groups position token, x.2 ∈ v.groupings := by
  cases token with
  | char c | operator index text => exact hgroups
  | closing g => exact fun x hx => hgroups x (List.mem_of_mem_tail hx)
  | opening g => exact List.forall_mem_cons.mpr ⟨hin, hgroups⟩

namespace Level

section

variable (position : Nat) (rest : List Token)

theorem ofTokens_char (c : Char) : ofTokens position (.char c :: rest) =
    ((ofTokens (position + 1) rest).1.pushChar c, (ofTokens (position + 1) rest).2) := rfl

theorem ofTokens_operator (index : Nat) (text : String) : ofTokens position (.operator index text :: rest) =
    ((ofTokens (position + text.length) rest).1.pushOperator index ⟨position, position + text.length⟩,
      (ofTokens (position + text.length) rest).2) := by
  rw [ofTokens, Token.length_operator]

theorem ofTokens_closing (g : Grouping) : ofTokens position (.closing g :: rest) =
    (emptyAt (position + g.closing.length),
      (ofTokens (position + g.closing.length) rest).1.flush (position + g.closing.length) ::
        (ofTokens (position + g.closing.length) rest).2) := by
  rw [ofTokens, Token.length_closing]

theorem ofTokens_opening (g : Grouping) : ofTokens position (.opening g :: rest) =
    (let (inner, outer) := ofTokens (position + g.opening.length) rest
    ((outer.headD (emptyAt inner.stop)).pushGroup g position inner, outer.tail)) := by
  rw [ofTokens, Token.length_opening]
  rcases ofTokens (position + g.opening.length) rest with ⟨inner, _ | ⟨next, others⟩⟩ <;> rfl

end

variable (v : Vocabulary)

/-- A level that holds what is read from `text`, but for the run at the left end, which may go on. -/
def Open (enclosing : Option Grouping) (position : Nat) (text rest : List Char) (l : Level) : Prop :=
  ∃ behind, text = l.run ++ behind ∧ v.Passes enclosing l.run (behind ++ rest) ∧
    v.Scans enclosing .token (position + l.run.length) behind rest l.padding l.forest

/-- A level that holds all that is read from `text`. -/
def Flushed (enclosing : Option Grouping) (position : Nat) (text rest : List Char) (l : Level) : Prop :=
  l.run = [] ∧ v.Scans enclosing .run position text rest l.padding l.forest

variable {v} {enclosing : Option Grouping} {position : Nat} {text rest : List Char} {l : Level}

@[simp] theorem run_flush (l : Level) (start : Nat) : (l.flush start).run = [] := by
  rw [flush]
  split <;> rfl

@[simp] theorem stop_flush (l : Level) (start : Nat) : (l.flush start).stop = l.stop := by
  rw [flush]
  split <;> rfl

theorem open_emptyAt (stop : Nat) : (emptyAt stop).Open v enclosing position [] rest :=
  ⟨[], rfl, trivial, .stop enclosing position rest⟩

theorem Open.flush (h : l.Open v enclosing position text rest) :
    (l.flush position).Flushed v enclosing position text rest := by
  obtain ⟨behind, rfl, hpasses, hscans⟩ := h
  rw [Level.flush]
  rcases Text.trim_cases l.run with ⟨hnil, hblank⟩ | ⟨lead, trail, hrun, hleading, hlead, htrail, hword⟩
  · rw [hnil]
    exact ⟨rfl, .blanks hpasses hblank hscans⟩
  · generalize Text.trim l.run = word at *
    cases word with
    | nil => exact absurd rfl hword.ne_nil
    | cons first others =>
      rw [hrun] at hpasses hscans
      refine ⟨rfl, ?_⟩
      dsimp only
      rw [hleading, hrun]
      exact .value hpasses hlead hword htrail hscans

theorem Open.pushChar {c : Char} (h : l.Open v enclosing (position + 1) text rest)
    (hfinds : v.Finds enclosing (c :: (text ++ rest)) (.char c)) :
    (l.pushChar c).Open v enclosing position (c :: text) rest := by
  obtain ⟨behind, rfl, hpasses, hscans⟩ := h
  rw [List.append_assoc] at hfinds
  refine ⟨behind, rfl, ⟨hfinds, hpasses⟩, ?_⟩
  rw [show position + (l.pushChar c).run.length = position + 1 + l.run.length by
    rw [Level.pushChar, List.length_cons]; omega]
  exact hscans

theorem Open.pushOperator {index : Nat} {token : String}
    (h : l.Open v enclosing (position + token.length) text rest)
    (hfinds : v.Finds enclosing (token.toList ++ (text ++ rest)) (.operator index token)) :
    (l.pushOperator index ⟨position, position + token.length⟩).Open v enclosing position
      (token.toList ++ text) rest := by
  obtain ⟨hrun, hscans⟩ := h.flush
  refine ⟨token.toList ++ text, ?_, ?_, ?_⟩
  · rw [Level.pushOperator, hrun, List.nil_append]
  · rw [Level.pushOperator, hrun]
    trivial
  · rw [Level.pushOperator, hrun]
    exact .operator hfinds hscans

theorem Open.pushGroup {g : Grouping} {inside : List Char} {outer : Level}
    (h : l.Open v (some g) (position + g.opening.length) inside (g.closing.toList ++ (text ++ rest)))
    (hopening : v.Finds enclosing (g.opening.toList ++ (inside ++ (g.closing.toList ++ (text ++ rest))))
      (.opening g))
    (hclosing : v.Finds (some g) (g.closing.toList ++ (text ++ rest)) (.closing g))
    (hstop : l.stop = position + g.opening.length + inside.length + g.closing.length)
    (houter : outer.Flushed v enclosing l.stop text rest) :
    (outer.pushGroup g position l).Open v enclosing position
      (g.opening.toList ++ (inside ++ (g.closing.toList ++ text))) rest := by
  obtain ⟨_, hcontent⟩ := h.flush
  obtain ⟨hrun, hscans⟩ := houter
  refine ⟨g.opening.toList ++ (inside ++ (g.closing.toList ++ text)), ?_, ?_, ?_⟩
  · rw [Level.pushGroup, hrun, List.nil_append]
  · rw [Level.pushGroup, hrun]
    trivial
  · rw [Level.pushGroup, hrun]
    dsimp only
    rw [stop_flush]
    exact .group hopening hcontent hclosing hstop hscans

/-- The levels at some place of a text: `l` holds what is read there up to the end of the innermost of the
open groups `gs`, and `outer` holds in turn what is read behind each of them. -/
def Nested (v : Vocabulary) (Inner : Option Grouping → Nat → List Char → List Char → Level → Prop)
    (position : Nat) (text : List Char) : List Grouping → Level → List Level → Prop
  | [], l, outer => outer = [] ∧ Inner none position text [] l ∧ l.stop = position + text.length
  | g :: gs, l, outer => ∃ inside behind next others, text = inside ++ (g.closing.toList ++ behind) ∧
      outer = next :: others ∧ Inner (some g) position inside (g.closing.toList ++ behind) l ∧
      v.Finds (some g) (g.closing.toList ++ behind) (.closing g) ∧
      l.stop = position + inside.length + g.closing.length ∧
      Nested v (Flushed v) l.stop behind gs next others

/-- What is put to the left of the innermost level leaves the levels around it as they are. -/
theorem Nested.imp_inner {Inner Outcome : Option Grouping → Nat → List Char → List Char → Level → Prop}
    {gs : List Grouping} {l' : Level} {outer : List Level} (front : List Char)
    (h : Nested v Inner (position + front.length) text gs l outer) (hstop : l'.stop = l.stop)
    (hinner : ∀ inside rest, inside ++ rest = text →
      Inner gs.head? (position + front.length) inside rest l →
      Outcome gs.head? position (front ++ inside) rest l') :
    Nested v Outcome position (front ++ text) gs l' outer := by
  cases gs with
  | nil =>
    obtain ⟨houter, hl, hend⟩ := h
    refine ⟨houter, hinner text [] (List.append_nil text) hl, ?_⟩
    rw [hstop, hend, List.length_append]
    omega
  | cons g gs =>
    obtain ⟨inside, behind, next, others, htext, houter, hl, hclosing, hend, hothers⟩ := h
    refine ⟨front ++ inside, behind, next, others, ?_, houter, hinner inside _ htext.symm hl, hclosing, ?_, ?_⟩
    · rw [htext, List.append_assoc]
    · rw [hstop, hend, List.length_append]
      omega
    · rw [hstop]
      exact hothers

section

variable {gs : List Grouping} {outer : List Level}

theorem Nested.pushChar {c : Char} (h : Nested v (Open v) (position + 1) text gs l outer)
    (hfinds : v.Finds gs.head? (c :: text) (.char c)) :
    Nested v (Open v) position (c :: text) gs (l.pushChar c) outer := by
  refine Nested.imp_inner [c] h rfl ?_
  rintro inside rest rfl hopen
  exact hopen.pushChar hfinds

theorem Nested.pushOperator {index : Nat} {token : String}
    (h : Nested v (Open v) (position + token.length) text gs l outer)
    (hfinds : v.Finds gs.head? (token.toList ++ text) (.operator index token)) :
    Nested v (Open v) position (token.toList ++ text) gs
      (l.pushOperator index ⟨position, position + token.length⟩) outer := by
  rw [← String.length_toList] at h
  refine Nested.imp_inner token.toList h (stop_flush l _) ?_
  rintro inside rest rfl hopen
  rw [String.length_toList] at hopen
  exact hopen.pushOperator hfinds

/-- In front of an end delimiter the group that it closes has been entered. -/
theorem Nested.enter {g : Grouping} (h : Nested v (Open v) (position + g.closing.length) text gs l outer)
    (hfinds : v.Finds (some g) (g.closing.toList ++ text) (.closing g)) :
    Nested v (Open v) position (g.closing.toList ++ text) (g :: gs) (emptyAt (position + g.closing.length))
      (l.flush (position + g.closing.length) :: outer) := by
  refine ⟨[], text, _, _, rfl, rfl, open_emptyAt _, hfinds, rfl, ?_⟩
  refine Nested.imp_inner [] h (stop_flush l _) ?_
  rintro inside rest rfl hopen
  exact hopen.flush

/-- In front of a start delimiter the group that it opens has been left. -/
theorem Nested.leave {g : Grouping}
    (h : Nested v (Open v) (position + g.opening.length) text (g :: gs) l outer)
    (hfinds : v.Finds gs.head? (g.opening.toList ++ text) (.opening g)) :
    ∃ next others, outer = next :: others ∧
      Nested v (Open v) position (g.opening.toList ++ text) gs (next.pushGroup g position l) others := by
  obtain ⟨inside, behind, next, others, rfl, rfl, hopen, hclosing, hstop, hnested⟩ := h
  refine ⟨next, others, rfl, ?_⟩
  have hwhole : l.stop = position + (g.opening.toList ++ (inside ++ g.closing.toList)).length := by
    simp only [List.length_append, String.length_toList]
    omega
  have hall : g.opening.toList ++ (inside ++ (g.closing.toList ++ behind)) =
      g.opening.toList ++ (inside ++ g.closing.toList) ++ behind := by
    simp only [List.append_assoc]
  rw [hall] at hfinds ⊢
  rw [hwhole] at hnested
  refine Nested.imp_inner _ hnested rfl ?_
  rintro outside rest rfl hflushed
  rw [← hwhole] at hflushed
  simp only [List.append_assoc] at hfinds hopen hclosing ⊢
  exact hopen.pushGroup hfinds hclosing hstop hflushed

end

theorem drop_of_append_eq_cons {α : Type} {front after cs : List α} {c : α} (hne : front ≠ [])
    (h : front ++ after = c :: cs) : cs.drop (front.length - 1) = after := by
  obtain ⟨d, others, rfl⟩ := List.exists_cons_of_ne_nil hne
  rw [List.cons_append, List.cons.injEq] at h
  rw [← h.2, List.length_cons, Nat.add_sub_cancel, List.drop_left]

/-- A text is read on behind the token that is found at its left end. -/
theorem exists_behind_token (hv : v.Valid) {groups : List (Nat × Grouping)}
    (hgroups : ∀ x ∈ groups, x.2 ∈ v.groupings) {c : Char} {cs : List Char} {token : Token}
    (htoken : v.tokenAt (groups.head?.map Prod.snd) c cs = .ok token) :
    ∃ behind, token.text ++ behind = c :: cs ∧ cs.drop (token.length - 1) = behind ∧
      v.Finds (groups.head?.map Prod.snd) (token.text ++ behind) token := by
  have hfinds : v.Finds (groups.head?.map Prod.snd) (c :: cs) token := ⟨c, cs, rfl, htoken⟩
  obtain ⟨hin, behind, hbehind⟩ := hfinds.spec
  rw [← hbehind] at hfinds
  exact ⟨behind, hbehind,
    drop_of_append_eq_cons (hin.text_ne_nil hv (Vocabulary.mem_groupings_of_head? hgroups)) hbehind, hfinds⟩

/-- Reading tokens backwards restores what was open at each of them. -/
theorem nested_ofTokens (hv : v.Valid) {groups : List (Nat × Grouping)} {tokens : List Token}
    (hgroups : ∀ x ∈ groups, x.2 ∈ v.groupings) (h : v.tokensFrom groups position text = .ok tokens) :
    Nested v (Open v) position text (groups.map Prod.snd) (ofTokens position tokens).1
      (ofTokens position tokens).2 := by
  -- Tokens are found from left to right, and the levels are built on the way back.
  fun_induction v.tokensFrom groups position text generalizing tokens with
  | case1 position =>
    cases h
    exact ⟨rfl, open_emptyAt position, rfl⟩
  | case2 => cases h
  | case3 => cases h
  | case4 groups position c cs token htoken ih =>
    obtain ⟨after, hafter, hdrop, hfinds⟩ := exists_behind_token hv hgroups htoken
    have hin := hfinds.spec.1
    rw [hdrop] at h ih
    cases hbehind : v.tokensFrom (Vocabulary.openAfter groups position token) (position + token.length)
        after with
    | error e =>
      rw [hbehind] at h
      cases h
    | ok behind =>
      rw [hbehind] at h
      cases h
      have hnested := ih (Vocabulary.forall_mem_openAfter hgroups hin position) hbehind
      rw [← List.head?_map] at hfinds
      rw [← hafter]
      cases token with
      | char d => exact hnested.pushChar hfinds
      | operator index token =>
        rw [Token.length_operator] at hnested
        rw [ofTokens_operator]
        exact hnested.pushOperator hfinds
      | closing g =>
        obtain ⟨⟨start, g'⟩, gs, rfl⟩ : ∃ x gs, groups = x :: gs := by
          cases groups with
          | nil => cases hin
          | cons x gs => exact ⟨x, gs, rfl⟩
        cases hin
        rw [Token.length_closing] at hnested
        rw [ofTokens_closing]
        exact hnested.enter hfinds
      | opening g =>
        rw [Token.length_opening] at hnested
        obtain ⟨next, others, houter, hnested⟩ := hnested.leave hfinds
        rw [ofTokens_opening]
        simp only [houter]
        exact hnested

end Level

end Bracketed
