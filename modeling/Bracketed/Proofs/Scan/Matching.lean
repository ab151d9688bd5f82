import Bracketed.Proofs.Matching
import Bracketed.Proofs.Scan.Parse

namespace Bracketed

/-- No end delimiter begins with another one. -/
def Vocabulary.EndsApart (v : Vocabulary) : Prop :=
  ∀ g ∈ v.groupings, ∀ d ∈ v.groupings, g.closing.toList <+: d.closing.toList → g.closing = d.closing

theorem Vocabulary.closing?_eq_some {v : Vocabulary} {cs : List Char} {g : Grouping} (h : v.closing? cs = some g) :
    g ∈ v.groupings ∧ g.closing.toList <+: cs := by
  have hbegins := List.find?_some h
  exact ⟨List.mem_of_find?_eq_some h, List.isPrefixOf_iff_prefix.mp hbegins⟩

/-- Where an end delimiter stands, no other one is found. -/
theorem Vocabulary.EndsApart.closing?_eq {v : Vocabulary} (h : v.EndsApart) {g : Grouping}
    (hg : g ∈ v.groupings) {cs : List Char} (hbegins : g.closing.toList <+: cs) :
    ∃ d, v.closing? cs = some d ∧ d.closing = g.closing := by
  cases hclosing : v.closing? cs with
  | none =>
    rw [closing?, List.find?_eq_none] at hclosing
    exact absurd (List.isPrefixOf_iff_prefix.mpr hbegins) (hclosing g hg)
  | some d =>
    refine ⟨d, rfl, ?_⟩
    obtain ⟨hd, hdbegins⟩ := closing?_eq_some hclosing
    rcases List.prefix_or_prefix_of_prefix hdbegins hbegins with hle | hle
    · exact h d hd g hg hle
    · exact (h g hg d hd hle).symm

/-- The token that a lexeme is inside the group `enclosing`. An end delimiter that does not close that group
is none. -/
def Lexeme.within (enclosing : Option Grouping) : Lexeme → Except String Token
  | opening g => .ok (.opening g)
  | closing delimiter =>
    match enclosing with
    | none => .error delimiter
    | some g => if g.closing = delimiter then .ok (.closing g) else .error delimiter
  | operator index text => .ok (.operator index text)
  | char c => .ok (.char c)

/-- That the innermost end delimiter is tried before all others makes no difference if only one of them can
stand at a place. -/
theorem Vocabulary.mapError_tokenAt {v : Vocabulary} (hends : v.EndsApart) {enclosing : Option Grouping}
    (henclosing : ∀ g, enclosing = some g → g ∈ v.groupings) (c : Char) (cs : List Char) :
    (v.tokenAt enclosing c cs).mapError Grouping.closing = (v.lexemeAt c cs).within enclosing := by
  rw [tokenAt, lexemeAt]
  cases hopening : v.opening? (c :: cs) with
  | some g => rfl
  | none =>
    cases hfilter : enclosing.filter fun g => g.closing.toList.isPrefixOf (c :: cs) with
    | some g =>
      obtain ⟨rfl, hbegins⟩ := Option.filter_eq_some_iff.mp hfilter
      obtain ⟨d, hd, hclosing⟩ := hends.closing?_eq (henclosing g rfl) (List.isPrefixOf_iff_prefix.mp hbegins)
      simp only [hd, Lexeme.within, hclosing, if_true]
      rfl
    | none =>
      cases hclosing : v.closing? (c :: cs) with
      | none => rcases v.operator? (c :: cs) with _ | ⟨text, index⟩ <;> rfl
      | some d =>
        cases enclosing with
        | none => rfl
        | some g =>
          obtain ⟨_, hbegins⟩ := closing?_eq_some hclosing
          have hne : g.closing ≠ d.closing := by
            intro heq
            rw [← heq] at hbegins
            exact Option.filter_eq_none_iff.mp hfilter g rfl (List.isPrefixOf_iff_prefix.mpr hbegins)
          simp only [Lexeme.within, if_neg hne]
          rfl

theorem Lexeme.length_of_within {enclosing : Option Grouping} {lexeme : Lexeme} {token : Token}
    (h : lexeme.within enclosing = .ok token) : token.length = lexeme.length := by
  cases lexeme with
  | opening g => cases h; exact Token.length_opening g
  | closing delimiter =>
    cases enclosing with
    | none => cases h
    | some g =>
      rw [within] at h
      split at h
      · next heq => cases h; rw [← heq]; exact Token.length_closing g
      · cases h
  | operator index text => cases h; exact Token.length_operator index text
  | char c => cases h; rfl

/-- The lexeme that a token is read from. -/
def Token.lexeme : Token → Lexeme
  | opening g => .opening g
  | closing g => .closing g.closing
  | operator index text => .operator index text
  | char c => .char c

theorem Token.IsIn.within_lexeme {v : Vocabulary} {enclosing : Option Grouping} {token : Token}
    (h : token.IsIn v enclosing) : token.lexeme.within enclosing = .ok token := by
  cases token with
  | char c | operator index text | opening g => rfl
  | closing g =>
    cases h
    exact if_pos rfl

namespace Level

/-- Only the innermost level may have a run at its left end. -/
theorem run_eq_nil_of_mem_ofTokens (position : Nat) (tokens : List Token) :
    ∀ l ∈ (ofTokens position tokens).2, l.run = [] := by
  induction tokens generalizing position with
  | nil =>
    intro l hl
    cases hl
  | cons token rest ih =>
    cases token with
    | char c => exact ih _
    | operator index text =>
      rw [ofTokens_operator]
      exact ih _
    | closing g =>
      rw [ofTokens_closing]
      exact List.forall_mem_cons.mpr ⟨run_flush _ _, ih _⟩
    | opening g =>
      rw [ofTokens_opening]
      exact fun l hl => ih _ l (List.mem_of_mem_tail hl)

end Level

namespace Matcher

/-- What the innermost group holds once what is behind it there is read too. -/
def join (m : Matcher) (l : Level) : Content :=
  let behind := { l with run := m.run ++ l.run }.flush m.start
  ⟨m.content.padding + behind.padding, m.content.forest.append behind.forest⟩

/-- What the root holds if the groups `opened` are closed one after the other, the innermost one at `stop`
with `content` in it. The levels hold what stands behind each of them. -/
def closeAll (content : Content) (stop : Nat) : List OpenGroup → List Level → Content
  | [], _ => content
  | o :: opened, outer =>
    let next := outer.headD (.emptyAt stop)
    let e : Enclosure := { grouping := o.grouping, span := ⟨o.start, stop⟩, padding := content.padding }
    closeAll ⟨o.around.padding + next.padding, o.around.forest.append (.group e content.forest next.forest)⟩
      next.stop opened outer.tail

/-- What the root holds once all that is behind the matcher is read too. -/
def complete (m : Matcher) (levels : Level × List Level) : Content :=
  closeAll (m.join levels.1) levels.1.stop m.opened levels.2

/-- A run that ends at the matcher is all that needs flushing. -/
theorem join_of_run_eq_nil (m : Matcher) {l : Level} (h : l.run = []) :
    m.join l = ⟨m.flush.padding + l.padding, m.flush.forest.append l.forest⟩ := by
  rw [join, h, List.append_nil, flush, Content.appendRun, Level.flush]
  dsimp only
  rcases Text.trim_cases m.run with ⟨htrim, hblank⟩ | ⟨lead, trail, hrun, hleading, hlead, htrail, hword⟩
  · rw [htrim, if_pos (List.all_eq_true.mpr hblank)]
    simp only [Nat.add_assoc]
  · have hnot : ¬ m.run.all Text.isBlank = true := by
      intro hall
      exact hword.ne_nil (Text.trim_of_blank (List.all_eq_true.mp hall))
    obtain ⟨first, others, hcons⟩ := List.exists_cons_of_ne_nil hword.ne_nil
    rw [if_neg hnot, hcons]
    simp only [Content.append, Forest.append_assoc, Forest.append]

variable (m : Matcher) (l : Level) (outer : List Level)

theorem complete_pushChar (c : Char) : (m.pushChar c).complete (l, outer) = m.complete (l.pushChar c, outer) := by
  simp only [complete, join, pushChar, Level.pushChar, List.append_assoc, List.singleton_append]

theorem complete_pushOperator (index : Nat) (text : String) :
    (m.pushOperator index text).complete (l, outer) =
      m.complete (l.pushOperator index ⟨m.position, m.position + text.length⟩, outer) := by
  have hrun : (l.pushOperator index ⟨m.position, m.position + text.length⟩).run = [] := Level.run_flush _ _
  rw [complete, complete, join_of_run_eq_nil m hrun, join, pushOperator, Level.pushOperator]
  simp only [Content.append, Forest.append_assoc, Forest.append, List.nil_append, Level.stop_flush]

theorem complete_enter (g : Grouping) (hflushed : ∀ next ∈ outer, next.run = []) :
    (m.enter g).complete (l, outer) =
      m.complete ((outer.headD (.emptyAt l.stop)).pushGroup g m.position l, outer.tail) := by
  have hrun : ((outer.headD (.emptyAt l.stop)).pushGroup g m.position l).run = [] := by
    cases outer with
    | nil => rfl
    | cons next others => exact hflushed next List.mem_cons_self
  rw [complete, complete, join_of_run_eq_nil m hrun, join, enter, closeAll, Level.pushGroup]
  simp only [Content.empty, Forest.append, List.nil_append, Nat.zero_add, Level.stop_flush]

theorem complete_leave (o : OpenGroup) (opened : List OpenGroup) (hopened : m.opened = o :: opened) :
    (m.leave o opened).complete (l, outer) =
      m.complete (.emptyAt (m.position + o.grouping.closing.length),
        l.flush (m.position + o.grouping.closing.length) :: outer) := by
  rw [complete, complete, join_of_run_eq_nil m rfl, hopened, closeAll, join, leave]
  simp only [Level.emptyAt, Content.append, Forest.append_assoc, Forest.append, Forest.append_nil,
    List.nil_append, List.headD_cons, List.tail_cons, Nat.add_zero, Level.stop_flush]

/-- The open groups as reading knows them. -/
def groups (m : Matcher) : List (Nat × Grouping) :=
  m.opened.map fun o => (o.start, o.grouping)

/-- How the matcher reads a lexeme that is a token in the innermost open group. -/
theorem exists_step_eq_ok {m : Matcher} {lexeme : Lexeme} {token : Token}
    (h : lexeme.within (m.groups.head?.map Prod.snd) = .ok token) :
    ∃ m', m.step lexeme = .ok m' ∧ m'.groups = Vocabulary.openAfter m.groups m.position token ∧
      m'.position = m.position + token.length ∧
      ∀ rest, m'.complete (Level.ofTokens m'.position rest) =
        m.complete (Level.ofTokens m.position (token :: rest)) := by
  cases lexeme with
  | char c =>
    cases h
    have hposition : (m.pushChar c).position = m.position + 1 := by
      rw [position, position, pushChar, List.length_append]
      rfl
    refine ⟨m.pushChar c, rfl, rfl, hposition, ?_⟩
    intro rest
    rw [Level.ofTokens_char, ← complete_pushChar, hposition]
  | operator index text =>
    cases h
    refine ⟨m.pushOperator index text, rfl, rfl, ?_, ?_⟩
    · exact congrArg (m.position + ·) (Token.length_operator index text).symm
    · intro rest
      rw [Level.ofTokens_operator, ← complete_pushOperator]
      rfl
  | opening g =>
    cases h
    refine ⟨m.enter g, rfl, rfl, ?_, ?_⟩
    · exact congrArg (m.position + ·) (Token.length_opening g).symm
    · intro rest
      rw [Level.ofTokens_opening]
      exact complete_enter m _ _ g (Level.run_eq_nil_of_mem_ofTokens _ _)
  | closing delimiter =>
    rw [groups] at h
    cases hopened : m.opened with
    | nil =>
      rw [hopened] at h
      cases h
    | cons o opened =>
      rw [hopened, List.map_cons, List.head?_cons, Option.map_some, Lexeme.within] at h
      split at h
      · next hclosing =>
        cases h
        refine ⟨m.leave o opened, ?_, ?_, ?_, ?_⟩
        · rw [step, hopened]
          exact if_pos hclosing
        · rw [groups, groups, hopened]
          rfl
        · exact congrArg (m.position + ·) (Token.length_closing o.grouping).symm
        · intro rest
          rw [Level.ofTokens_closing]
          exact complete_leave m _ _ o opened hopened
      · cases h

/-- An end delimiter that closes no group is unbalanced. -/
theorem step_eq_error {m : Matcher} {lexeme : Lexeme} {delimiter : String}
    (h : lexeme.within (m.groups.head?.map Prod.snd) = .error delimiter) :
    m.step lexeme = .error (.unbalancedEnd delimiter m.position) := by
  cases lexeme with
  | char c | operator index text | opening g => cases h
  | closing delimiter =>
    rw [groups] at h
    rw [step]
    cases hopened : m.opened with
    | nil =>
      rw [hopened] at h
      cases h
      rfl
    | cons o opened =>
      rw [hopened, List.map_cons, List.head?_cons, Option.map_some, Lexeme.within] at h
      split at h
      · cases h
      · next hclosing =>
        cases h
        exact if_neg hclosing

theorem finish_eq (m : Matcher) (v : Vocabulary) :
    m.finish = (v.tokensFrom m.groups m.position []).map fun tokens =>
      m.complete (Level.ofTokens m.position tokens) := by
  rw [finish, groups]
  cases hopened : m.opened with
  | nil =>
    rw [List.map_nil, Vocabulary.tokensFrom]
    change Except.ok m.flush = .ok (m.complete (.emptyAt m.position, []))
    rw [complete, hopened, closeAll, join_of_run_eq_nil m rfl]
    simp only [Level.emptyAt, Forest.append_nil, Nat.add_zero]
  | cons o opened =>
    rw [List.map_cons, Vocabulary.tokensFrom]
    rfl

/-- All of a text is read behind the matcher that begins there. -/
theorem complete_atStart (tokens : List Token) :
    atStart.complete (Level.ofTokens 0 tokens) = ⟨(Level.root tokens).padding, (Level.root tokens).forest⟩ := by
  rw [complete, atStart, closeAll, join, Level.root]
  simp only [Content.empty, Forest.append, List.nil_append, Nat.zero_add]

/-- Reading the token at the left end of a text leaves it to what is behind the token to complete the content. -/
theorem exists_step_of_tokenAt {v : Vocabulary} {m : Matcher} {lexeme : Lexeme} {token : Token} {c : Char}
    {cs : List Char} (htoken : v.tokenAt (m.groups.head?.map Prod.snd) c cs = .ok token)
    (hwithin : lexeme.within (m.groups.head?.map Prod.snd) = .ok token) :
    ∃ m', m.step lexeme = .ok m' ∧ m'.groups = Vocabulary.openAfter m.groups m.position token ∧
      m'.position = m.position + token.length ∧
      ((v.tokensFrom m'.groups m'.position (cs.drop (token.length - 1))).map fun tokens =>
        m'.complete (Level.ofTokens m'.position tokens)) =
      (v.tokensFrom m.groups m.position (c :: cs)).map fun tokens => m.complete (Level.ofTokens m.position tokens) := by
  obtain ⟨m', hstep, hopen, hposition, hcomplete⟩ := exists_step_eq_ok hwithin
  refine ⟨m', hstep, hopen, hposition, ?_⟩
  rw [hopen, hposition, Vocabulary.tokensFrom, htoken]
  dsimp only
  cases hrest : v.tokensFrom (Vocabulary.openAfter m.groups m.position token) (m.position + token.length)
      (cs.drop (token.length - 1)) with
  | error e => rfl
  | ok rest =>
    have hlevels := hcomplete rest
    rw [hposition] at hlevels
    exact congrArg Except.ok hlevels

/-- Matching the lexemes of a text has the outcome of reading it with the same groups open. -/
theorem readAll_lexemes {v : Vocabulary} (hends : v.EndsApart) (cs : List Char) (m : Matcher)
    (hgroups : ∀ x ∈ m.groups, x.2 ∈ v.groupings) :
    m.readAll (v.lexemes cs) = (v.tokensFrom m.groups m.position cs).map fun tokens =>
      m.complete (Level.ofTokens m.position tokens) := by
  fun_induction v.lexemes cs generalizing m with
  | case1 => exact m.finish_eq v
  | case2 c cs ih =>
    have hwithin := v.mapError_tokenAt hends (Vocabulary.mem_groupings_of_head? hgroups) c cs
    rw [readAll]
    cases htoken : v.tokenAt (m.groups.head?.map Prod.snd) c cs with
    | error g =>
      rw [htoken] at hwithin
      rw [step_eq_error hwithin.symm, Vocabulary.tokensFrom, htoken]
      rfl
    | ok token =>
      rw [htoken] at hwithin
      obtain ⟨m', hstep, hopen, _, hcompleted⟩ := exists_step_of_tokenAt htoken hwithin.symm
      have hfinds : v.Finds (m.groups.head?.map Prod.snd) (c :: cs) token := ⟨c, cs, rfl, htoken⟩
      have hread := ih m' (hopen ▸ Vocabulary.forall_mem_openAfter hgroups hfinds.spec.1 m.position)
      rw [← Lexeme.length_of_within hwithin.symm] at hread
      rw [hstep, ← hcompleted, ← hread, Lexeme.length_of_within hwithin.symm]
      rfl

end Matcher

namespace Parser

variable {T : Type}

/-- A text is parsed as what the matcher makes of its lexemes, which are found without knowing the open groups. -/
theorem parse_eq_readAll {p : Parser T} (hcheck : p.vocabulary.check = .ok ()) (hends : p.vocabulary.EndsApart)
    (source : String) :
    p.parse source = (Matcher.atStart.readAll (p.vocabulary.lexemes source.toList)).map fun root =>
      ⟨source, root.padding, root.forest, p.operators, p.leaf, p.associativity⟩ := by
  have hread := Matcher.readAll_lexemes hends source.toList Matcher.atStart (List.forall_mem_nil _)
  rw [hread, parse, parseWith, hcheck]
  change (p.vocabulary.tokens source.toList >>= _) = Except.map _ (Except.map _ (p.vocabulary.tokens source.toList))
  cases htokens : p.vocabulary.tokens source.toList with
  | error e => rfl
  | ok tokens =>
    have hposition : Matcher.atStart.position = 0 := rfl
    dsimp only [Except.map]
    rw [hposition, Matcher.complete_atStart]
    rfl

theorem parse_eq_readAll_bracketing :
    let p := bracketing.grouping "[" "]"
    let lexemes : List Lexeme := [.opening ⟨"(", ")"⟩, .char 'a', .operator 1 "-", .opening ⟨"[", "]"⟩,
      .char 'b', .closing ")"]
    p.vocabulary.check = .ok () ∧ p.vocabulary.EndsApart ∧ p.vocabulary.lexemes "(a-[b)".toList = lexemes ∧
      Matcher.atStart.readAll lexemes = .error (.unbalancedEnd ")" 5) ∧
      p.parse "(a-[b)" = .error (.unbalancedEnd ")" 5) := by
  intro p lexemes
  have hcheck : p.vocabulary.check = .ok () := by decide
  have hends : p.vocabulary.EndsApart := by
    unfold Vocabulary.EndsApart
    decide
  have hlexemes : p.vocabulary.lexemes "(a-[b)".toList = lexemes := by with_unfolding_all rfl
  have hread : Matcher.atStart.readAll lexemes = .error (.unbalancedEnd ")" 5) := rfl
  refine ⟨hcheck, hends, hlexemes, hread, ?_⟩
  rw [parse_eq_readAll hcheck hends, hlexemes, hread]
  rfl

end Parser

end Bracketed
