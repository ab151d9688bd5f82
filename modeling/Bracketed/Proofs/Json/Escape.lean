import Bracketed.Json.Reader

namespace Bracketed.Json

/-- Every character is written as itself, as a backslash and a letter, or as a backslash and the number of the
character. -/
theorem escapeChar_cases (c : Char) :
    (∃ letter, escapeChar c = ['\\', letter] ∧ escapedBy? letter = some c ∧ letter ≠ 'u') ∨
    (∃ high low, escapeChar c = ['\\', 'u', '0', '0', high, low] ∧ hexQuad? '0' '0' high low = some c.toNat ∧
      c.toNat < 0x20) ∨
    escapeChar c = [c] ∧ c ≠ '"' ∧ c ≠ '\\' ∧ ¬ c.toNat < 0x20 := by
  have hquad : ∀ n < 0x20, hexQuad? '0' '0' (Nat.digitChar (n / 16)) (Nat.digitChar (n % 16)) = some n := by
    decide
  fun_cases escapeChar c
  case case8 hcontrol => exact .inr (.inl ⟨_, _, rfl, hquad _ hcontrol, hcontrol⟩)
  case case9 hquote hbackslash _ _ _ _ _ hcontrol => exact .inr (.inr ⟨rfl, hquote, hbackslash, hcontrol⟩)
  all_goals
    subst_vars
    exact .inl ⟨_, rfl, rfl, by decide⟩

/-- A character can be read from what it is written as, whatever follows. -/
theorem unescape?_escapeChar (c : Char) (rest : List Char) :
    unescape? (escapeChar c ++ rest) = (unescape? rest).map (c :: ·) := by
  rcases escapeChar_cases c with ⟨letter, hescape, hletter, hu⟩ | ⟨high, low, hescape, hquad, hcontrol⟩ |
    ⟨hescape, hquote, hbackslash, -⟩
  · rw [hescape, List.cons_append, List.cons_append, List.nil_append, unescape?, hletter]
    · cases unescape? rest <;> rfl
    · intro a b c d rest hu'
      exact absurd hu' hu
  · have hcode : c.toNat < 0xD800 ∨ 0xDFFF < c.toNat := Or.inl (Nat.lt_trans hcontrol (by decide))
    rw [hescape]
    simp only [List.cons_append, List.nil_append]
    rw [unescape?, hquad, Option.bind_eq_bind, Option.bind_some, if_pos hcode, Char.ofNat_toNat]
    cases unescape? rest <;> rfl
  · rw [hescape, List.singleton_append, unescape?]
    · cases unescape? rest <;> rfl
    · intro a b c d rest hc
      exact absurd hc hbackslash
    · intro letter rest hc
      exact absurd hc hbackslash

/-- A text can be read from what it is written as. -/
theorem unescape?_escape (s : List Char) : unescape? (escape s) = some s := by
  induction s with
  | nil => rfl
  | cons c s ih =>
    rw [escape, List.flatMap_cons, unescape?_escapeChar]
    exact congrArg (Option.map (c :: ·)) ih

/-- What a character is written as belongs to the string as a whole. -/
theorem takeString_escapeChar (c : Char) (rest : List Char) :
    takeString (escapeChar c ++ rest) = (takeString rest).map (Prod.map (escapeChar c ++ ·) id) := by
  rcases escapeChar_cases c with ⟨letter, hescape, hletter, hu⟩ | ⟨high, low, hescape, hquad, hcontrol⟩ |
    ⟨hescape, hquote, hbackslash, hcontrol⟩
  · rw [hescape, List.cons_append, List.cons_append, List.nil_append, takeString, hletter]
    · cases takeString rest <;> rfl
    · intro a b c d rest hu'
      exact absurd hu' hu
  · rw [hescape]
    simp only [List.cons_append, List.nil_append]
    rw [takeString, hquad]
    cases takeString rest <;> rfl
  · rw [hescape, List.singleton_append, takeString, if_neg hcontrol]
    · cases takeString rest <;> rfl
    · exact hquote
    · intro a b c d rest hc
      exact absurd hc hbackslash
    · intro letter rest hc
      exact absurd hc hbackslash

/-- The end of a written text is found behind its last character. -/
theorem takeString_escape (s rest : List Char) : takeString (escape s ++ '"' :: rest) = some (escape s, rest) := by
  induction s with
  | nil => rfl
  | cons c s ih =>
    rw [escape, List.flatMap_cons, List.append_assoc, takeString_escapeChar]
    exact congrArg (Option.map (Prod.map (escapeChar c ++ ·) id)) ih

end Bracketed.Json
