import Bracketed.Proofs.Scan.Parse

namespace Bracketed

theorem Vocabulary.check_of_valid {v : Vocabulary} (hv : v.Valid) : v.check = .ok () := by
  have hoperators : ¬ (v.operators.any String.isEmpty) = true := by
    simpa only [List.any_eq_true, String.isEmpty_iff, not_exists, not_and] using hv.operator
  have hgroupings : ¬ (v.groupings.any fun g => g.opening.isEmpty || g.closing.isEmpty) = true := by
    simp only [List.any_eq_true, Bool.or_eq_true, String.isEmpty_iff, not_exists, not_and, not_or]
    exact fun g hg => ⟨hv.opening g hg, hv.closing g hg⟩
  rw [check, if_neg hoperators, if_neg hgroupings]

/-- Without a run there is nothing to flush. -/
theorem Level.flush_mk_nil (stop padding position : Nat) (f : Forest) :
    (Level.mk stop [] padding f).flush position = ⟨stop, [], padding, f⟩ := by
  rw [Level.flush]
  change Level.mk stop [] (0 + padding) f = _
  rw [Nat.zero_add]

namespace Vocabulary

/-- With these groups open a text is read into tokens, and from these into the level `inner` of the innermost
group and the levels `outer` around it. -/
def ReadsAs (v : Vocabulary) (groups : List (Nat × Grouping)) (position : Nat) (cs : List Char) (inner : Level)
    (outer : List Level) : Prop :=
  ∃ tokens, v.tokensFrom groups position cs = .ok tokens ∧ Level.ofTokens position tokens = (inner, outer)

section

variable {v : Vocabulary} {groups : List (Nat × Grouping)} {position : Nat} {after : List Char} {l : Level}
  {outer : List Level}

/-- A token that is found is the first of those that are read. -/
theorem Finds.tokensFrom_eq {token : Token} (h : v.Finds (groups.head?.map Prod.snd) (token.text ++ after) token)
    (hv : v.Valid) (hgroups : ∀ x ∈ groups, x.2 ∈ v.groupings) :
    v.tokensFrom groups position (token.text ++ after) =
      (v.tokensFrom (openAfter groups position token) (position + token.length) after).map (token :: ·) := by
  have hnonempty := h.spec.1.text_ne_nil hv (mem_groupings_of_head? hgroups)
  obtain ⟨c, rest, hcons, htoken⟩ := h
  have hdrop := Level.drop_of_append_eq_cons hnonempty hcons
  change rest.drop (token.length - 1) = after at hdrop
  rw [hcons, tokensFrom, htoken]
  dsimp only
  rw [hdrop]
  cases v.tokensFrom (openAfter groups position token) (position + token.length) after <;> rfl

theorem tokensFrom_cons (hv : v.Valid) (hgroups : ∀ x ∈ groups, x.2 ∈ v.groupings) (token : Token)
    {behind : List Token} (hfinds : v.Finds (groups.head?.map Prod.snd) (token.text ++ after) token)
    (hbehind : v.tokensFrom (openAfter groups position token) (position + token.length) after = .ok behind) :
    v.tokensFrom groups position (token.text ++ after) = .ok (token :: behind) := by
  rw [hfinds.tokensFrom_eq hv hgroups, hbehind]
  rfl

theorem ReadsAs.char (hv : v.Valid) (hgroups : ∀ x ∈ groups, x.2 ∈ v.groupings) {c : Char}
    (hfinds : v.Finds (groups.head?.map Prod.snd) (c :: after) (.char c))
    (h : v.ReadsAs groups (position + 1) after l outer) :
    v.ReadsAs groups position (c :: after) (l.pushChar c) outer := by
  obtain ⟨tokens, htokens, hlevels⟩ := h
  refine ⟨.char c :: tokens, tokensFrom_cons hv hgroups (.char c) hfinds htokens, ?_⟩
  rw [Level.ofTokens_char, hlevels]

theorem ReadsAs.operator (hv : v.Valid) (hgroups : ∀ x ∈ groups, x.2 ∈ v.groupings) {index : Nat} {token : String}
    (hfinds : v.Finds (groups.head?.map Prod.snd) (token.toList ++ after) (.operator index token))
    (h : v.ReadsAs groups (position + token.length) after l outer) :
    v.ReadsAs groups position (token.toList ++ after)
      (l.pushOperator index ⟨position, position + token.length⟩) outer := by
  obtain ⟨tokens, htokens, hlevels⟩ := h
  rw [← Token.length_operator index] at htokens
  refine ⟨_, tokensFrom_cons hv hgroups (.operator index token) hfinds htokens, ?_⟩
  rw [Level.ofTokens_operator, hlevels]

/-- From right to left an end delimiter begins a new level, and that of the group around it is complete. -/
theorem ReadsAs.closing (hv : v.Valid) (hgroups : ∀ x ∈ groups, x.2 ∈ v.groupings) {g : Grouping}
    (hg : g ∈ v.groupings) (start : Nat) (hfinds : v.Finds (some g) (g.closing.toList ++ after) (.closing g))
    (h : v.ReadsAs groups (position + g.closing.length) after l outer) :
    v.ReadsAs ((start, g) :: groups) position (g.closing.toList ++ after)
      (.emptyAt (position + g.closing.length)) (l.flush (position + g.closing.length) :: outer) := by
  obtain ⟨tokens, htokens, hlevels⟩ := h
  rw [← Token.length_closing] at htokens
  refine ⟨_, tokensFrom_cons hv (List.forall_mem_cons.mpr ⟨hg, hgroups⟩) (.closing g) hfinds htokens, ?_⟩
  rw [Level.ofTokens_closing, hlevels]

/-- A start delimiter makes the level behind it a group of the level around that. -/
theorem ReadsAs.opening (hv : v.Valid) (hgroups : ∀ x ∈ groups, x.2 ∈ v.groupings) {g : Grouping}
    {inner : Level} (hfinds : v.Finds (groups.head?.map Prod.snd) (g.opening.toList ++ after) (.opening g))
    (h : v.ReadsAs ((position, g) :: groups) (position + g.opening.length) after inner (l :: outer)) :
    v.ReadsAs groups position (g.opening.toList ++ after) (l.pushGroup g position inner) outer := by
  obtain ⟨tokens, htokens, hlevels⟩ := h
  rw [← Token.length_opening] at htokens
  refine ⟨_, tokensFrom_cons hv hgroups (.opening g) hfinds htokens, ?_⟩
  rw [Level.ofTokens_opening, hlevels]
  rfl

/-- A run is read character by character, and these are put to the left of what stands behind it. -/
theorem Passes.readsAs (hv : v.Valid) (hgroups : ∀ x ∈ groups, x.2 ∈ v.groupings) {run : List Char}
    (hpasses : v.Passes (groups.head?.map Prod.snd) run after)
    (h : v.ReadsAs groups (position + run.length) after l outer) :
    v.ReadsAs groups position (run ++ after) { l with run := run ++ l.run } outer := by
  induction run generalizing position with
  | nil => exact h
  | cons c run ih =>
    obtain ⟨hfinds, hpasses⟩ := hpasses
    have hnext : position + (c :: run).length = position + 1 + run.length := by
      rw [List.length_cons]
      omega
    rw [hnext] at h
    exact .char hv hgroups hfinds (ih hpasses h)

end

/-- Siblings that are scanned from a text are what the text is read as, whatever groups are open, if behind
the text these are read on with nothing in the innermost one. -/
theorem Scans.readsAs {v : Vocabulary} (hv : v.Valid) {enclosing : Option Grouping} {b : Boundary}
    {position padding : Nat} {text rest : List Char} {f : Forest}
    (h : v.Scans enclosing b position text rest padding f) {groups : List (Nat × Grouping)}
    (henclosing : groups.head?.map Prod.snd = enclosing) (hgroups : ∀ x ∈ groups, x.2 ∈ v.groupings)
    {last stop : Nat} {outer : List Level} (hlast : last = position + text.length)
    (hbehind : v.ReadsAs groups last rest (.emptyAt stop) outer) :
    ∃ l, v.ReadsAs groups position (text ++ rest) l outer ∧ l.flush position = ⟨stop, [], padding, f⟩ ∧
      (b = .token → l = ⟨stop, [], padding, f⟩) := by
  induction h generalizing groups last stop outer with
  | stop enclosing position rest =>
    subst hlast
    exact ⟨_, hbehind, rfl, fun _ => rfl⟩
  | @blanks enclosing position run text rest padding f hpasses hblank htoken ih =>
    subst henclosing
    rw [List.length_append, ← Nat.add_assoc] at hlast
    obtain ⟨l, hread, _, hl⟩ := ih rfl hgroups hlast hbehind
    have hrun := hpasses.readsAs hv hgroups hread
    rw [hl rfl, List.append_nil, ← List.append_assoc] at hrun
    refine ⟨_, hrun, ?_, by simp⟩
    rw [Level.flush, Text.trim_of_blank hblank]
  | @value enclosing position lead word trail text rest padding f hpasses hlead hword htrail htoken ih =>
    subst henclosing
    rw [List.length_append, ← Nat.add_assoc] at hlast
    obtain ⟨l, hread, _, hl⟩ := ih rfl hgroups hlast hbehind
    have hrun := hpasses.readsAs hv hgroups hread
    rw [hl rfl, List.append_nil, ← List.append_assoc] at hrun
    refine ⟨_, hrun, ?_, by simp⟩
    obtain ⟨htrim, hleading⟩ := Text.trim_append hlead hword htrail
    obtain ⟨first, others, rfl⟩ := List.exists_cons_of_ne_nil hword.ne_nil
    rw [Level.flush]
    dsimp only
    rw [htrim, hleading]
  | @operator enclosing position index token text rest padding f hfinds hrun ih =>
    subst henclosing
    rw [List.length_append, String.length_toList, ← Nat.add_assoc] at hlast
    obtain ⟨l, hread, hflush, _⟩ := ih rfl hgroups hlast hbehind
    have hoperator := ReadsAs.operator hv hgroups hfinds hread
    rw [Level.pushOperator, hflush, ← List.append_assoc] at hoperator
    exact ⟨_, hoperator, Level.flush_mk_nil _ _ _ _, fun _ => rfl⟩
  | @group enclosing position close inner padding g inside text rest content f hopening hcontent hclosing hclose
      hrun ihc ihr =>
    subst henclosing
    have hend : last = close + text.length := by
      simp only [List.length_append, String.length_toList] at hlast
      omega
    -- What stands behind the group is read first, then its content with the end delimiter behind it.
    obtain ⟨l, hread, hflush, _⟩ := ihr rfl hgroups hend hbehind
    rw [hclose] at hread
    have hclosed := ReadsAs.closing hv hgroups hopening.spec.1 position hclosing hread
    rw [← hclose, hflush] at hclosed
    have hregistered : ∀ x ∈ (position, g) :: groups, x.2 ∈ v.groupings :=
      List.forall_mem_cons.mpr ⟨hopening.spec.1, hgroups⟩
    obtain ⟨m, hinside, hcontentFlush, _⟩ := ihc rfl hregistered rfl hclosed
    have hgroup := ReadsAs.opening hv hgroups hopening hinside
    rw [Level.pushGroup, hcontentFlush] at hgroup
    refine ⟨_, ?_, Level.flush_mk_nil _ _ _ _, fun _ => rfl⟩
    simpa only [List.append_assoc] using hgroup

end Vocabulary

namespace Parser

variable {T : Type} {p : Parser T} {source : String}

/-- A text that is scanned outside all groups parses as what it is scanned as. -/
theorem parse_of_scans (hv : p.vocabulary.Valid) {padding : Nat} {f : Forest}
    (h : p.vocabulary.Scans none .run 0 source.toList [] padding f) :
    p.parse source = .ok ⟨source, padding, f, p.operators, p.leaf, p.associativity⟩ := by
  have hend : p.vocabulary.ReadsAs [] (0 + source.toList.length) [] (.emptyAt (0 + source.toList.length)) [] :=
    ⟨[], by rw [Vocabulary.tokensFrom], rfl⟩
  obtain ⟨l, ⟨tokens, htokens, hlevels⟩, hflush, _⟩ := h.readsAs hv rfl (by simp) rfl hend
  rw [List.append_nil] at htokens
  rw [parse, parseWith_eq_ok_iff]
  refine ⟨Vocabulary.check_of_valid hv, tokens, htokens, ?_⟩
  rw [Level.root, hlevels, hflush]

end Parser

end Bracketed
