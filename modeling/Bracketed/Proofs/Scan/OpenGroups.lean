import Bracketed.Proofs.Scan.Spacing

namespace Bracketed

/-- The text that tokens were read from. -/
def Token.spell (tokens : List Token) : List Char :=
  tokens.flatMap text

theorem Token.spell_cons (token : Token) (tokens : List Token) :
    spell (token :: tokens) = token.text ++ spell tokens := rfl

theorem Token.spell_append (tokens later : List Token) :
    spell (tokens ++ later) = spell tokens ++ spell later :=
  List.flatMap_append

namespace Vocabulary

/-- With the groups `groups` open at `position` the tokens are found one after the other, with `rest` behind them,
and the groups `opened` are open then. -/
inductive Reads (v : Vocabulary) (rest : List Char) :
    List (Nat × Grouping) → (position : Nat) → List Token → List (Nat × Grouping) → Prop where
  | nil (groups : List (Nat × Grouping)) (position : Nat) : v.Reads rest groups position [] groups
  | cons {groups opened : List (Nat × Grouping)} {position : Nat} {token : Token} {tokens : List Token}
      (hfinds : v.Finds (groups.head?.map Prod.snd) (token.text ++ (Token.spell tokens ++ rest)) token)
      (hbehind : v.Reads rest (openAfter groups position token) (position + token.length) tokens opened) :
      v.Reads rest groups position (token :: tokens) opened

/-- Why a text is read no further at `position`: it ends there with a group open, or an end delimiter stands there
that does not close the innermost group. -/
inductive Halts (v : Vocabulary) (position : Nat) : List (Nat × Grouping) → List Char → ParseError → Prop where
  | unclosed (start : Nat) (g : Grouping) (outer : List (Nat × Grouping)) :
      v.Halts position ((start, g) :: outer) [] (.unclosedGroup g.opening start)
  | unbalanced {groups : List (Nat × Grouping)} {c : Char} {cs : List Char} {g : Grouping}
      (htoken : v.tokenAt (groups.head?.map Prod.snd) c cs = .error g) :
      v.Halts position groups (c :: cs) (.unbalancedEnd g.closing position)

variable {v : Vocabulary} {rest behind kept cs source : List Char} {groups opened : List (Nat × Grouping)}
  {position : Nat} {tokens : List Token}

/-- No token is found exactly where an end delimiter stands, but no start delimiter and not the end delimiter of the
innermost group. -/
theorem tokenAt_eq_error_iff {enclosing : Option Grouping} {c : Char} {g : Grouping} :
    v.tokenAt enclosing c cs = .error g ↔ v.opening? (c :: cs) = none ∧
      enclosing.filter (fun g => g.closing.toList.isPrefixOf (c :: cs)) = none ∧ v.closing? (c :: cs) = some g := by
  rw [tokenAt]
  cases v.opening? (c :: cs) with
  | some d => simp
  | none =>
    cases enclosing.filter fun g => g.closing.toList.isPrefixOf (c :: cs) with
    | some d => simp
    | none =>
      cases v.closing? (c :: cs) with
      | some d => simp
      | none => rcases v.operator? (c :: cs) with _ | ⟨text, index⟩ <;> simp

/-- A text that cannot be read as tokens is read as far as it can be. -/
theorem exists_reads_of_tokensFrom_error (hv : v.Valid) (hgroups : ∀ x ∈ groups, x.2 ∈ v.groupings)
    {err : ParseError} (h : v.tokensFrom groups position cs = .error err) :
    ∃ tokens opened rest, cs = Token.spell tokens ++ rest ∧ v.Reads rest groups position tokens opened ∧
      v.Halts (position + (Token.spell tokens).length) opened rest err := by
  fun_induction v.tokensFrom groups position cs with
  | case1 => cases h
  | case2 position start g outer =>
    cases h
    exact ⟨[], _, [], rfl, .nil _ position, .unclosed start g outer⟩
  | case3 groups position c cs g htoken =>
    cases h
    exact ⟨[], groups, c :: cs, rfl, .nil groups position, .unbalanced htoken⟩
  | case4 groups position c cs token htoken ih =>
    obtain ⟨after, hafter, hdrop, hfinds⟩ := Level.exists_behind_token hv hgroups htoken
    rw [hdrop] at h ih
    cases hbehind : v.tokensFrom (openAfter groups position token) (position + token.length) after with
    | ok behind =>
      rw [hbehind] at h
      cases h
    | error e =>
      rw [hbehind] at h
      cases h
      obtain ⟨tokens, opened, rest, rfl, hreads, hhalts⟩ :=
        ih (forall_mem_openAfter hgroups hfinds.spec.1 position) hbehind
      refine ⟨token :: tokens, opened, rest, ?_, .cons hfinds hreads, ?_⟩
      · rw [← hafter, Token.spell_cons, List.append_assoc]
      · rwa [Token.spell_cons, List.length_append, ← Nat.add_assoc]

namespace Reads

theorem forall_mem_groupings (h : v.Reads rest groups position tokens opened)
    (hgroups : ∀ x ∈ groups, x.2 ∈ v.groupings) : ∀ x ∈ opened, x.2 ∈ v.groupings := by
  induction h with
  | nil groups position => exact hgroups
  | cons hfinds hbehind ih => exact ih (forall_mem_openAfter hgroups hfinds.spec.1 _)

/-- What has been read stays as it is, and the rest is read on from there. -/
theorem tokensFrom_eq (h : v.Reads rest groups position tokens opened) (hv : v.Valid)
    (hgroups : ∀ x ∈ groups, x.2 ∈ v.groupings) :
    v.tokensFrom groups position (Token.spell tokens ++ rest) =
      (v.tokensFrom opened (position + (Token.spell tokens).length) rest).map (tokens ++ ·) := by
  induction h with
  | nil groups position =>
    change v.tokensFrom groups position rest = (v.tokensFrom groups position rest).map id
    cases v.tokensFrom groups position rest <;> rfl
  | @cons groups opened position token tokens hfinds hbehind ih =>
    rw [Token.spell_cons, List.append_assoc, hfinds.tokensFrom_eq hv hgroups,
      ih (forall_mem_openAfter hgroups hfinds.spec.1 position), List.length_append, ← Nat.add_assoc]
    change _ = (v.tokensFrom opened (position + token.length + (Token.spell tokens).length) rest).map _
    cases v.tokensFrom opened (position + token.length + (Token.spell tokens).length) rest <;> rfl

/-- What is read of a whole text is all of its tokens, unless groups are open at its end. -/
theorem tokens_eq (h : v.Reads [] [] 0 tokens opened) (hv : v.Valid) :
    v.tokens (Token.spell tokens) =
      (v.tokensFrom opened (Token.spell tokens).length []).map (tokens ++ ·) := by
  have hread := h.tokensFrom_eq hv (List.forall_mem_nil _)
  rwa [List.append_nil, Nat.zero_add] at hread

/-- Tokens are read as they are with less behind them. -/
theorem cut (h : v.Reads rest groups position tokens opened) (hv : v.Valid)
    (hgroups : ∀ x ∈ groups, x.2 ∈ v.groupings) (hkept : kept <+: rest) :
    v.Reads kept groups position tokens opened := by
  induction h with
  | nil groups position => exact .nil groups position
  | @cons groups opened position token tokens hfinds hbehind ih =>
    have hbegins : token.text ++ (Token.spell tokens ++ kept) <+: token.text ++ (Token.spell tokens ++ rest) := by
      simpa only [List.prefix_append_right_inj] using hkept
    have htext := hfinds.spec.1.text_ne_nil hv (mem_groupings_of_head? hgroups)
    exact .cons (hfinds.cut hbegins htext (List.prefix_append _ _))
      (ih (forall_mem_openAfter hgroups hfinds.spec.1 position))

/-- Tokens are read as they are with more behind them, if none of them reaches into that. -/
theorem extend (h : v.Reads rest groups position tokens opened) (hgroups : ∀ x ∈ groups, x.2 ∈ v.groupings)
    (hsep : v.Separates (Token.spell tokens ++ rest) behind) :
    v.Reads (rest ++ behind) groups position tokens opened := by
  induction h with
  | nil groups position => exact .nil groups position
  | @cons groups opened position token tokens hfinds hbehind ih =>
    rw [Token.spell_cons, List.append_assoc] at hsep
    have hextended := hfinds.extend (mem_groupings_of_head? hgroups) hsep
    rw [List.append_assoc, List.append_assoc] at hextended
    exact .cons hextended
      (ih (forall_mem_openAfter hgroups hfinds.spec.1 position) (hsep.suffix (List.suffix_append _ _)))

theorem append {between : List (Nat × Grouping)} {later : List Token}
    (h : v.Reads (Token.spell later ++ rest) groups position tokens between)
    (hlater : v.Reads rest between (position + (Token.spell tokens).length) later opened) :
    v.Reads rest groups position (tokens ++ later) opened := by
  induction h with
  | nil groups position => exact hlater
  | cons hfinds hbehind ih =>
    rw [Token.spell_cons, List.length_append, ← Nat.add_assoc] at hlater
    rw [List.cons_append]
    refine .cons ?_ (ih hlater)
    rwa [Token.spell_append, List.append_assoc]

theorem opening?_of_restAt (h : v.Reads rest groups position tokens opened)
    (hsource : RestAt source position (Token.spell tokens ++ rest))
    (hgroups : ∀ x ∈ groups, v.opening? (source.drop x.1) = some x.2) :
    ∀ x ∈ opened, v.opening? (source.drop x.1) = some x.2 := by
  induction h with
  | nil groups position => exact hgroups
  | @cons groups opened position token tokens hfinds hbehind ih =>
    rw [Token.spell_cons, List.append_assoc] at hsource
    refine ih hsource.advance ?_
    cases token with
    | char c | operator index text => exact hgroups
    | closing g => exact fun x hx => hgroups x (List.mem_of_mem_tail hx)
    | opening g =>
      refine List.forall_mem_cons.mpr ⟨?_, hgroups⟩
      obtain ⟨before, rfl, rfl⟩ := hsource
      rw [List.drop_left]
      exact (finds_iff_prevails.mp hfinds).2

/-- The groups that are open begin with their start delimiters, and no grouping that is tried earlier has its start
delimiter there. -/
theorem opening?_of_mem (h : v.Reads rest [] 0 tokens opened) {o : Nat × Grouping} (ho : o ∈ opened) :
    v.opening? ((Token.spell tokens ++ rest).drop o.1) = some o.2 :=
  h.opening?_of_restAt (RestAt.start _) (List.forall_mem_nil _) o ho

end Reads

end Vocabulary

namespace Parser

variable {T : Type} {p : Parser T} {source d : String} {i : Nat}

/-- A text with a delimiter at fault is read up to where that shows. -/
theorem exists_reads_of_parse_error {err : ParseError} (h : p.parse source = .error err) (hindex : err.index ≠ none) :
    p.vocabulary.check = .ok () ∧ ∃ tokens opened rest, source.toList = Token.spell tokens ++ rest ∧
      p.vocabulary.Reads rest [] 0 tokens opened ∧
      p.vocabulary.Halts (Token.spell tokens).length opened rest err := by
  have hcheck := check_of_parse_error h hindex
  have htokens := (parse_eq_error_iff hcheck).mp h
  obtain ⟨tokens, opened, rest, hsource, hreads, hhalts⟩ :=
    Vocabulary.exists_reads_of_tokensFrom_error (Vocabulary.valid_of_check hcheck) (List.forall_mem_nil _) htokens
  rw [Nat.zero_add] at hhalts
  exact ⟨hcheck, tokens, opened, rest, hsource, hreads, hhalts⟩

theorem parse_of_reads_nil (hcheck : p.vocabulary.check = .ok ()) {tokens : List Token}
    (h : p.vocabulary.Reads [] [] 0 tokens []) (hsource : source.toList = Token.spell tokens) :
    ∃ e, p.parse source = .ok e ∧ e.content = (Level.root tokens).forest := by
  have htokens := h.tokens_eq (Vocabulary.valid_of_check hcheck)
  rw [← hsource, Vocabulary.tokensFrom] at htokens
  have hall := htokens.trans (congrArg Except.ok (List.append_nil tokens))
  exact ⟨_, parseWith_eq_ok_iff.mpr ⟨hcheck, tokens, hall, rfl⟩, rfl⟩

/-- A group that is open where the text ends is reported, the innermost one if there are several. -/
theorem parse_of_reads_cons (hcheck : p.vocabulary.check = .ok ()) {tokens : List Token} {o : Nat × Grouping}
    {outer : List (Nat × Grouping)} (h : p.vocabulary.Reads [] [] 0 tokens (o :: outer))
    (hsource : source.toList = Token.spell tokens) :
    p.parse source = .error (.unclosedGroup o.2.opening o.1) := by
  have htokens := h.tokens_eq (Vocabulary.valid_of_check hcheck)
  rw [← hsource, Vocabulary.tokensFrom] at htokens
  rwa [parse_eq_error_iff hcheck]

/-- What it means for an end delimiter to be unbalanced. It is the first of those that stand where the error is, and
no start delimiter stands there. The text before it parses, or a group is left open there. That group begins with the
first start delimiter that stands at its place, and it is not closed by what stands where the error is. -/
theorem parse_of_unbalancedEnd (h : p.parse source = .error (.unbalancedEnd d i)) :
    ∃ front back : String, source = front ++ back ∧ front.length = i ∧ i < source.length ∧
      (∃ g, p.vocabulary.closing? back.toList = some g ∧ g.closing = d) ∧
      (∀ g ∈ p.groupings, ¬ g.opening.toList <+: back.toList) ∧
      ((∃ e, p.parse front = .ok e) ∨
        ∃ g start, p.parse front = .error (.unclosedGroup g.opening start) ∧
          p.vocabulary.opening? (front.toList.drop start) = some g ∧ ¬ g.closing.toList <+: back.toList) := by
  obtain ⟨hcheck, tokens, opened, rest, hsource, hreads, hhalts⟩ :=
    exists_reads_of_parse_error h (Option.some_ne_none i)
  cases hhalts with
  | @unbalanced _ c cs g htoken =>
    obtain ⟨hopening, hinnermost, hclosing⟩ := Vocabulary.tokenAt_eq_error_iff.mp htoken
    -- With nothing behind them in view the tokens before the delimiter are read as they are.
    have hfront : p.vocabulary.Reads [] [] 0 tokens opened :=
      hreads.cut (Vocabulary.valid_of_check hcheck) (List.forall_mem_nil _) List.nil_prefix
    have hspell : (String.ofList (Token.spell tokens)).toList = Token.spell tokens := String.toList_ofList
    refine ⟨String.ofList (Token.spell tokens), String.ofList (c :: cs), ?_, ?_, ?_, ?_, ?_, ?_⟩
    · rw [← String.ofList_append, ← hsource, String.ofList_toList]
    · rw [String.length_ofList]
    · rw [← String.length_toList, hsource, List.length_append, List.length_cons]
      omega
    · rw [String.toList_ofList]
      exact ⟨g, hclosing, rfl⟩
    · intro o ho
      rw [String.toList_ofList, ← List.isPrefixOf_iff_prefix]
      exact List.find?_eq_none.mp hopening o ho
    · cases opened with
      | nil =>
        obtain ⟨e, hparse, -⟩ := parse_of_reads_nil hcheck hfront hspell
        exact Or.inl ⟨e, hparse⟩
      | cons o outer =>
        refine Or.inr ⟨o.2, o.1, parse_of_reads_cons hcheck hfront hspell, ?_, ?_⟩
        · have hopening := hfront.opening?_of_mem List.mem_cons_self
          rwa [List.append_nil, ← hspell] at hopening
        · rw [String.toList_ofList, ← List.isPrefixOf_iff_prefix]
          exact Option.filter_eq_none_iff.mp hinnermost o.2 rfl

theorem parse_of_unbalancedEnd_bracketing :
    let p := bracketing.grouping "[" "]]"
    p.parse "(a-]]b" = .error (.unbalancedEnd "]]" 3) ∧
      ∃ front back : String, "(a-]]b" = front ++ back ∧ front.length = 3 ∧ 3 < "(a-]]b".length ∧
        (∃ g, p.vocabulary.closing? back.toList = some g ∧ g.closing = "]]") ∧
        (∀ g ∈ p.groupings, ¬ g.opening.toList <+: back.toList) ∧
        ((∃ e, p.parse front = .ok e) ∨
          ∃ g start, p.parse front = .error (.unclosedGroup g.opening start) ∧
            p.vocabulary.opening? (front.toList.drop start) = some g ∧ ¬ g.closing.toList <+: back.toList) := by
  intro p
  have hparse : p.parse "(a-]]b" = .error (.unbalancedEnd "]]" 3) := by with_unfolding_all rfl
  exact ⟨hparse, parse_of_unbalancedEnd hparse⟩

end Parser

end Bracketed
