import Bracketed.Text.Blank
import Mathlib.Data.List.TakeWhile

namespace Bracketed.Text

/-- A text that is not empty and neither begins nor ends with a blank. -/
structure Trimmed (cs : List Char) : Prop where
  ne_nil : cs ≠ []
  head : ∀ c, cs.head? = some c → isBlank c = false
  last : ∀ c, cs.getLast? = some c → isBlank c = false

/-- The right end of a text is trimmed by dropping nothing but blanks. -/
theorem exists_append_blanks_trimRight (cs : List Char) :
    ∃ trail, cs = trimRight cs ++ trail ∧ ∀ c ∈ trail, isBlank c = true := by
  induction cs with
  | nil => exact ⟨[], rfl, by simp⟩
  | cons c cs ih =>
    obtain ⟨trail, hsplit, htrail⟩ := ih
    rw [trimRight]
    split
    · next hnil =>
      rw [hnil, List.nil_append] at hsplit
      by_cases hc : isBlank c = true
      · rw [if_pos hc]
        refine ⟨c :: trail, by rw [hsplit, List.nil_append], ?_⟩
        intro d hd
        rcases List.mem_cons.mp hd with rfl | hd
        · exact hc
        · exact htrail d hd
      · rw [if_neg hc]
        exact ⟨trail, by rw [hsplit, List.singleton_append], htrail⟩
    · exact ⟨trail, by rw [List.cons_append, ← hsplit], htrail⟩

theorem isBlank_of_getLast?_trimRight {cs : List Char} {c : Char} (h : (trimRight cs).getLast? = some c) :
    isBlank c = false := by
  induction cs with
  | nil => cases h
  | cons d cs ih =>
    rw [trimRight] at h
    split at h
    · by_cases hd : isBlank d = true
      · rw [if_pos hd] at h
        cases h
      · rw [if_neg hd, List.getLast?_singleton, Option.some.injEq] at h
        rw [← h]
        exact Bool.eq_false_iff.mpr hd
    · next hrest =>
      obtain ⟨first, rest, hcons⟩ := List.exists_cons_of_ne_nil hrest
      rw [hcons, List.getLast?_cons_cons, ← hcons] at h
      exact ih h

/-- Trimming leaves nothing of a blank text, and cuts any other one into blanks, a trimmed text, and
blanks. -/
theorem trim_cases (cs : List Char) :
    (trim cs = [] ∧ ∀ c ∈ cs, isBlank c = true) ∨
    ∃ lead trail, cs = lead ++ (trim cs ++ trail) ∧ leadingBlanks cs = lead.length ∧
      (∀ c ∈ lead, isBlank c = true) ∧ (∀ c ∈ trail, isBlank c = true) ∧ Trimmed (trim cs) := by
  have hsplit : cs = cs.takeWhile isBlank ++ trimLeft cs := List.takeWhile_append_dropWhile.symm
  have hlead : ∀ c ∈ cs.takeWhile isBlank, isBlank c = true := by
    intro c hc
    exact List.mem_takeWhile_imp hc
  obtain ⟨trail, hright, htrail⟩ := exists_append_blanks_trimRight (trimLeft cs)
  change trimLeft cs = trim cs ++ trail at hright
  by_cases hnil : trim cs = []
  · refine Or.inl ⟨hnil, ?_⟩
    intro c hc
    rw [hsplit, hright, hnil, List.nil_append] at hc
    rcases List.mem_append.mp hc with hc | hc
    · exact hlead c hc
    · exact htrail c hc
  · refine Or.inr ⟨cs.takeWhile isBlank, trail, by rw [← hright, ← hsplit], rfl, hlead, htrail, hnil, ?_, ?_⟩
    · intro c hc
      obtain ⟨rest, hrest⟩ := List.head?_eq_some_iff.mp hc
      have hleft : cs.dropWhile isBlank = c :: (rest ++ trail) := by
        rw [← List.cons_append, ← hrest]
        exact hright
      have hnot := List.head?_dropWhile_not isBlank cs
      rw [hleft] at hnot
      exact hnot
    · intro c hc
      exact isBlank_of_getLast?_trimRight hc

theorem trimRight_of_blank {cs : List Char} (h : ∀ c ∈ cs, isBlank c = true) : trimRight cs = [] := by
  induction cs with
  | nil => rfl
  | cons c cs ih =>
    rw [trimRight, ih fun d hd => h d (List.mem_cons_of_mem c hd)]
    exact if_pos (h c List.mem_cons_self)

theorem trimRight_append {word trail : List Char} (hlast : ∀ c, word.getLast? = some c → isBlank c = false)
    (htrail : ∀ c ∈ trail, isBlank c = true) : trimRight (word ++ trail) = word := by
  induction word with
  | nil => exact trimRight_of_blank htrail
  | cons c word ih =>
    cases word with
    | nil =>
      rw [List.singleton_append, trimRight, trimRight_of_blank htrail]
      exact if_neg (Bool.eq_false_iff.mp (hlast c rfl))
    | cons d word =>
      rw [List.cons_append, trimRight, ih fun e he => hlast e (by rwa [List.getLast?_cons_cons])]

/-- Trimming takes away the blanks around a trimmed text and nothing else. -/
theorem trim_append {lead word trail : List Char} (hlead : ∀ c ∈ lead, isBlank c = true) (hword : Trimmed word)
    (htrail : ∀ c ∈ trail, isBlank c = true) :
    trim (lead ++ (word ++ trail)) = word ∧ leadingBlanks (lead ++ (word ++ trail)) = lead.length := by
  obtain ⟨first, rest, rfl⟩ := List.exists_cons_of_ne_nil hword.ne_nil
  have hfirst : ¬ isBlank first = true := Bool.eq_false_iff.mp (hword.head first rfl)
  constructor
  · rw [trim, trimLeft, List.dropWhile_append_of_pos hlead, List.cons_append, List.dropWhile_cons_of_neg hfirst]
    exact trimRight_append hword.last htrail
  · rw [leadingBlanks, List.takeWhile_append_of_pos hlead, List.cons_append, List.takeWhile_cons_of_neg hfirst,
      List.append_nil]

theorem trim_of_blank {cs : List Char} (h : ∀ c ∈ cs, isBlank c = true) : trim cs = [] := by
  have hleft : trimLeft cs = [] := List.dropWhile_eq_nil_iff.mpr h
  rw [trim, hleft]
  rfl

end Bracketed.Text
