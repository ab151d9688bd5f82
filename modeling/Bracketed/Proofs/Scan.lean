import Bracketed.Forest
import Bracketed.Proofs.Text.Trim
import Bracketed.Token.Lexer

namespace Bracketed

/-- A vocabulary whose tokens all have at least one character. -/
structure Vocabulary.Valid (v : Vocabulary) : Prop where
  operator : ∀ token ∈ v.operators, token ≠ ""
  opening : ∀ g ∈ v.groupings, g.opening ≠ ""
  closing : ∀ g ∈ v.groupings, g.closing ≠ ""

theorem Vocabulary.valid_of_check {v : Vocabulary} (h : v.check = .ok ()) : v.Valid := by
  rw [Vocabulary.check] at h
  split at h
  · cases h
  · next hoperators =>
    split at h
    · cases h
    · next hgroupings =>
      simp only [List.any_eq_true, Bool.or_eq_true, String.isEmpty_iff, not_exists, not_and, not_or] at *
      exact ⟨hoperators, fun g hg => (hgroupings g hg).1, fun g hg => (hgroupings g hg).2⟩

/-- The check refuses nothing but tokens of the empty text. -/
theorem Vocabulary.exists_of_check_eq_error {v : Vocabulary} {err : ParseError} (h : v.check = .error err) :
    ∃ what, err = .emptyToken what := by
  rw [Vocabulary.check] at h
  split at h
  · cases h
    exact ⟨_, rfl⟩
  · split at h <;> cases h
    exact ⟨_, rfl⟩

/-- The token that stands at the left end of a text inside the group `enclosing`. -/
def Vocabulary.Finds (v : Vocabulary) (enclosing : Option Grouping) (cs : List Char) (token : Token) : Prop :=
  ∃ c rest, cs = c :: rest ∧ v.tokenAt enclosing c rest = .ok token

/-- A token that is found is registered in its place, and its text is what the text begins with. An end
delimiter is that of the group it is found in. -/
def Token.IsIn (v : Vocabulary) (enclosing : Option Grouping) : Token → Prop
  | .opening g => g ∈ v.groupings
  | .closing g => enclosing = some g
  | .operator index text => v.operators[index]? = some text
  | .char _ => True

theorem Vocabulary.Finds.spec {v : Vocabulary} {enclosing : Option Grouping} {cs : List Char} {token : Token}
    (h : v.Finds enclosing cs token) : token.IsIn v enclosing ∧ token.text <+: cs := by
  obtain ⟨c, rest, rfl, h⟩ := h
  rw [Vocabulary.tokenAt] at h
  split at h
  · next g hopening =>
    cases h
    have hbegins := List.find?_some hopening
    exact ⟨List.mem_of_find?_eq_some hopening, List.isPrefixOf_iff_prefix.mp hbegins⟩
  · split at h
    · next g hclosing =>
      cases h
      rw [Option.filter_eq_some_iff] at hclosing
      exact ⟨hclosing.1, List.isPrefixOf_iff_prefix.mp hclosing.2⟩
    · split at h
      · cases h
      · split at h
        · next text index hoperator =>
          cases h
          have hbegins := List.find?_some hoperator
          have hmem := List.mem_of_find?_eq_some hoperator
          exact ⟨List.mk_mem_zipIdx_iff_getElem?.mp hmem, List.isPrefixOf_iff_prefix.mp hbegins⟩
        · cases h
          exact ⟨trivial, rest, rfl⟩

/-- Of all that may stand at the left end of a text the token takes precedence: start delimiters over the
innermost end delimiter, that one over all others, these over operators, and all of them over a character. -/
def Token.Prevails (v : Vocabulary) (enclosing : Option Grouping) (cs : List Char) : Token → Prop
  | .opening g => v.opening? cs = some g
  | .closing g => v.opening? cs = none ∧ enclosing.filter (fun g => g.closing.toList.isPrefixOf cs) = some g
  | .operator index text =>
    v.opening? cs = none ∧ enclosing.filter (fun g => g.closing.toList.isPrefixOf cs) = none ∧
      v.closing? cs = none ∧ v.operator? cs = some (text, index)
  | .char c =>
    v.opening? cs = none ∧ enclosing.filter (fun g => g.closing.toList.isPrefixOf cs) = none ∧
      v.closing? cs = none ∧ v.operator? cs = none ∧ cs.head? = some c

theorem Vocabulary.finds_iff_prevails {v : Vocabulary} {enclosing : Option Grouping} {cs : List Char}
    {token : Token} : v.Finds enclosing cs token ↔ cs ≠ [] ∧ token.Prevails v enclosing cs := by
  cases cs with
  | nil => simp [Finds]
  | cons c rest =>
    have hfinds : v.Finds enclosing (c :: rest) token ↔ v.tokenAt enclosing c rest = .ok token := by
      constructor
      · rintro ⟨_, _, ⟨⟩, h⟩
        exact h
      · intro h
        exact ⟨c, rest, rfl, h⟩
    rw [hfinds, tokenAt]
    cases hopening : v.opening? (c :: rest) with
    | some g => cases token <;> simp [Token.Prevails, hopening]
    | none =>
      cases henclosing : enclosing.filter fun g => g.closing.toList.isPrefixOf (c :: rest) with
      | some g => cases token <;> simp [Token.Prevails, hopening, henclosing]
      | none =>
        cases hclosing : v.closing? (c :: rest) with
        | some g => cases token <;> simp [Token.Prevails, hopening, henclosing, hclosing]
        | none =>
          rcases hoperator : v.operator? (c :: rest) with _ | ⟨text, index⟩ <;>
            cases token <;> simp [Token.Prevails, hopening, henclosing, hclosing, hoperator, and_comm]

/-- The characters of `run` are all read as such, one after the other, with `rest` behind them. -/
def Vocabulary.Passes (v : Vocabulary) (enclosing : Option Grouping) : List Char → List Char → Prop
  | [], _ => True
  | c :: run, rest => v.Finds enclosing (c :: (run ++ rest)) (.char c) ∧ v.Passes enclosing run rest

/-- Between two tokens there is a run of characters, which may be empty. A text is either read from the
beginning of such a run on, or from its end on, where a token or nothing follows. -/
inductive Boundary where
  | run
  | token

/-- The text `text` at `position`, which `rest` follows, is read inside the group `enclosing` as the
siblings `f` with `padding` blanks between them. A run without blanks at its ends is a value, and all
tokens are found where they stand with everything behind them in view. -/
inductive Vocabulary.Scans (v : Vocabulary) : Option Grouping → Boundary → (position : Nat) →
    (text rest : List Char) → (padding : Nat) → Forest → Prop where
  | stop (enclosing : Option Grouping) (position : Nat) (rest : List Char) :
      v.Scans enclosing .token position [] rest 0 .nil
  | blanks {enclosing : Option Grouping} {position : Nat} {run text rest : List Char} {padding : Nat}
      {f : Forest} (hpasses : v.Passes enclosing run (text ++ rest))
      (hblank : ∀ c ∈ run, Text.isBlank c = true)
      (htoken : v.Scans enclosing .token (position + run.length) text rest padding f) :
      v.Scans enclosing .run position (run ++ text) rest (run.length + padding) f
  | value {enclosing : Option Grouping} {position : Nat} {lead word trail text rest : List Char}
      {padding : Nat} {f : Forest} (hpasses : v.Passes enclosing (lead ++ (word ++ trail)) (text ++ rest))
      (hlead : ∀ c ∈ lead, Text.isBlank c = true) (hword : Text.Trimmed word)
      (htrail : ∀ c ∈ trail, Text.isBlank c = true)
      (htoken : v.Scans enclosing .token (position + (lead ++ (word ++ trail)).length) text rest padding f) :
      v.Scans enclosing .run position (lead ++ (word ++ trail) ++ text) rest padding
        (.value {
          text := String.ofList word
          rawLength := (lead ++ (word ++ trail)).length
          span := ⟨position + lead.length, position + lead.length + word.length⟩ } f)
  | operator {enclosing : Option Grouping} {position index : Nat} {token : String} {text rest : List Char}
      {padding : Nat} {f : Forest}
      (hfinds : v.Finds enclosing (token.toList ++ (text ++ rest)) (.operator index token))
      (hrun : v.Scans enclosing .run (position + token.length) text rest padding f) :
      v.Scans enclosing .token position (token.toList ++ text) rest padding
        (.operator ⟨index, ⟨position, position + token.length⟩⟩ f)
  | group {enclosing : Option Grouping} {position stop inner padding : Nat} {g : Grouping}
      {inside text rest : List Char} {content f : Forest}
      (hopening : v.Finds enclosing (g.opening.toList ++ (inside ++ (g.closing.toList ++ (text ++ rest))))
        (.opening g))
      (hcontent : v.Scans (some g) .run (position + g.opening.length) inside
        (g.closing.toList ++ (text ++ rest)) inner content)
      (hclosing : v.Finds (some g) (g.closing.toList ++ (text ++ rest)) (.closing g))
      (hstop : stop = position + g.opening.length + inside.length + g.closing.length)
      (hrun : v.Scans enclosing .run stop text rest padding f) :
      v.Scans enclosing .token position
        (g.opening.toList ++ (inside ++ (g.closing.toList ++ text))) rest padding
        (.group ⟨g, ⟨position, stop⟩, inner⟩ content f)

/-- Every operator and every grouping of the forest is a registered one. -/
def Forest.IsRegistered (v : Vocabulary) : Forest → Prop
  | .nil => True
  | .value _ rest => rest.IsRegistered v
  | .operator o rest => o.operator < v.operators.length ∧ rest.IsRegistered v
  | .group e content rest => e.grouping ∈ v.groupings ∧ content.IsRegistered v ∧ rest.IsRegistered v

theorem Vocabulary.Scans.isRegistered {v : Vocabulary} {enclosing : Option Grouping} {b : Boundary}
    {position padding : Nat} {text rest : List Char} {f : Forest}
    (h : v.Scans enclosing b position text rest padding f) : f.IsRegistered v := by
  induction h with
  | stop enclosing position rest => trivial
  | blanks hpasses hblank htoken ih => exact ih
  | value hpasses hlead hword htrail htoken ih => exact ih
  | operator hfinds hrun ih => exact ⟨(List.getElem?_eq_some_iff.mp hfinds.spec.1).1, ih⟩
  | group hopening hcontent hclosing hstop hrun ihc ihr => exact ⟨hopening.spec.1, ihc, ihr⟩

end Bracketed
