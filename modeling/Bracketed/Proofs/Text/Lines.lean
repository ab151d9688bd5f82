import Bracketed.Text.Lines

namespace Bracketed.Text

/-- What may stand behind a line: a line feed, together with the carriage return before it if there is one, or
nothing at all, so that the line is the last one and not empty. -/
inductive EndsLine (line : List Char) : (ending back : List Char) → Prop where
  | feed (back : List Char) (hreturn : line.getLast? ≠ some '\r') : EndsLine line ['\n'] back
  | returnFeed (back : List Char) : EndsLine line ['\r', '\n'] back
  | stop (hne : line ≠ []) : EndsLine line [] []

/-- A text consists of these lines. -/
inductive IsLines : List Char → List (List Char) → Prop where
  | nil : IsLines [] []
  | cons {line ending back : List Char} {others : List (List Char)} (hline : '\n' ∉ line)
      (hends : EndsLine line ending back) (hback : IsLines back others) :
      IsLines (line ++ (ending ++ back)) (line :: others)

/-- What stands before the first line feed of a text and what stands behind it can be told from the text. -/
theorem append_newline_inj {front back front' back' : List Char} (hfront : '\n' ∉ front) (hfront' : '\n' ∉ front')
    (h : front ++ '\n' :: back = front' ++ '\n' :: back') : front = front' ∧ back = back' := by
  induction front generalizing front' with
  | nil =>
    cases front' with
    | nil => exact ⟨rfl, List.tail_eq_of_cons_eq h⟩
    | cons c front' => exact absurd (List.mem_cons.mpr (.inl (List.head_eq_of_cons_eq h))) hfront'
  | cons c front ih =>
    cases front' with
    | nil => exact absurd (List.mem_cons.mpr (.inl (List.head_eq_of_cons_eq h).symm)) hfront
    | cons d front' =>
      obtain ⟨rfl, htail⟩ := List.cons_eq_cons.mp h
      obtain ⟨rfl, hback⟩ := ih (List.not_mem_of_not_mem_cons hfront) (List.not_mem_of_not_mem_cons hfront') htail
      exact ⟨rfl, hback⟩

/-- One more character at the beginning of a line belongs to it, if it does not make one line break with what
follows. -/
theorem EndsLine.cons {c : Char} {line ending back : List Char} (h : EndsLine line ending back)
    (hreturn : ∀ rest, c = '\r' → line ++ (ending ++ back) ≠ '\n' :: rest) :
    EndsLine (c :: line) ending back := by
  cases h with
  | feed back hlast =>
    refine .feed back ?_
    cases line with
    | nil =>
      rw [List.getLast?_singleton, ne_eq, Option.some.injEq]
      intro hc
      exact hreturn back hc rfl
    | cons d line => rwa [List.getLast?_cons_cons]
  | returnFeed back => exact .returnFeed back
  | stop hne => exact .stop (List.cons_ne_nil c line)

/-- A text consists of the lines that it is split into. -/
theorem isLines_lines (cs : List Char) : IsLines cs (lines cs) := by
  fun_induction lines cs with
  | case1 => exact .nil
  | case2 cs ih => exact .cons List.not_mem_nil (.feed cs (by simp)) ih
  | case3 cs ih => exact .cons List.not_mem_nil (.returnFeed cs) ih
  | case4 c cs hfeed hreturn hnil ih =>
    rw [hnil] at ih
    cases ih
    exact .cons (by simpa using Ne.symm hfeed) (.stop (List.cons_ne_nil c [])) .nil
  | case5 c cs hfeed hreturn line others hcons ih =>
    rw [hcons] at ih
    cases ih with
    | cons hline hends hback =>
      have hcline : '\n' ∉ c :: line := by
        rw [List.mem_cons, not_or]
        exact ⟨Ne.symm hfeed, hline⟩
      exact .cons hcline (hends.cons hreturn) hback

theorem IsLines.newline_notMem {cs : List Char} {ls : List (List Char)} (h : IsLines cs ls) :
    ∀ line ∈ ls, '\n' ∉ line := by
  induction h with
  | nil => simp
  | cons hline hends hback ih => exact List.forall_mem_cons.mpr ⟨hline, ih⟩

/-- The character at `index` belongs to the line `line`, or to the line break at its end, and has `number` lines
before its own and `column` characters before it in that line. -/
def LineAt (cs : List Char) (index number column : Nat) (line : List Char) : Prop :=
  ∃ front ending back, cs = front ++ (line ++ (ending ++ back)) ∧
    (front = [] ∨ front.getLast? = some '\n') ∧ '\n' ∉ line ∧ EndsLine line ending back ∧
    front.count '\n' = number ∧ front.length + column = index ∧ column < line.length + ending.length

/-- A line break ends with a line feed, and holds no other one. -/
theorem EndsLine.feed_last {line ending back : List Char} (h : EndsLine line ending back) (hback : back ≠ []) :
    ending.getLast? = some '\n' ∧ ending.count '\n' = 1 := by
  cases h with
  | feed | returnFeed => exact ⟨rfl, rfl⟩
  | stop => exact absurd rfl hback

/-- Every character of a text is in one of its lines. -/
theorem IsLines.exists_lineAt {cs : List Char} {ls : List (List Char)} (h : IsLines cs ls) {index : Nat}
    (hindex : index < cs.length) :
    ∃ number column line, ls[number]? = some line ∧ LineAt cs index number column line := by
  induction h generalizing index with
  | nil => exact absurd hindex (Nat.not_lt_zero index)
  | @cons line ending back others hline hends hback ih =>
    by_cases hhere : index < line.length + ending.length
    · exact ⟨0, index, line, rfl, [], ending, back, rfl, Or.inl rfl, hline, hends, rfl, Nat.zero_add _, hhere⟩
    · rw [List.length_append, List.length_append] at hindex
      obtain ⟨number, column, later, hlater, front, laterEnding, after, hsplit, hfront, hnewline, hlaterEnds,
        hnumber, hlength, hcolumn⟩ := @ih (index - (line.length + ending.length)) (by omega)
      have hbehind : back ≠ [] := by
        rintro rfl
        rw [List.length_nil] at hindex
        omega
      obtain ⟨hlast, hcount⟩ := hends.feed_last hbehind
      refine ⟨number + 1, column, later, hlater, line ++ (ending ++ front), laterEnding, after, ?_, Or.inr ?_,
        hnewline, hlaterEnds, ?_, ?_, hcolumn⟩
      · rw [hsplit, List.append_assoc, List.append_assoc]
      · rcases hfront with rfl | hfront
        · rw [List.append_nil, List.getLast?_append, hlast, Option.some_or]
        · rw [List.getLast?_append, List.getLast?_append, hfront, Option.some_or, Option.some_or]
      · rw [List.count_append, List.count_append, List.count_eq_zero_of_not_mem hline, hcount, hnumber]
        omega
      · rw [List.length_append, List.length_append]
        omega

/-- Lines can be told from the text that they make up when each is ended by a line feed. -/
theorem flatMap_newline_inj {ls ls' : List (List Char)} (hnewline : ∀ line ∈ ls, '\n' ∉ line)
    (hnewline' : ∀ line ∈ ls', '\n' ∉ line) (h : ls.flatMap (· ++ ['\n']) = ls'.flatMap (· ++ ['\n'])) : ls = ls' := by
  induction ls generalizing ls' with
  | nil =>
    cases ls' with
    | nil => rfl
    | cons line ls' => simp at h
  | cons line ls ih =>
    cases ls' with
    | nil => simp at h
    | cons line' ls' =>
      obtain ⟨hline, hothers⟩ := List.forall_mem_cons.mp hnewline
      obtain ⟨hline', hothers'⟩ := List.forall_mem_cons.mp hnewline'
      rw [List.flatMap_cons, List.flatMap_cons, List.append_assoc, List.append_assoc] at h
      obtain ⟨rfl, hbehind⟩ := append_newline_inj hline hline' h
      rw [ih hothers hothers' hbehind]

/-- The text consists of this many lines, each ended by a line feed. -/
def HasLines (number : Nat) (text : List Char) : Prop :=
  ∃ ls : List (List Char), ls.length = number ∧ (∀ line ∈ ls, '\n' ∉ line) ∧ text = ls.flatMap (· ++ ['\n'])

theorem hasLines_nil : HasLines 0 [] :=
  ⟨[], rfl, List.forall_mem_nil _, rfl⟩

theorem HasLines.append {number number' : Nat} {text text' : List Char} (h : HasLines number text)
    (h' : HasLines number' text') : HasLines (number + number') (text ++ text') := by
  obtain ⟨ls, rfl, hnewline, rfl⟩ := h
  obtain ⟨ls', rfl, hnewline', rfl⟩ := h'
  exact ⟨ls ++ ls', List.length_append, List.forall_mem_append.mpr ⟨hnewline, hnewline'⟩,
    List.flatMap_append.symm⟩

/-- Each line feed inside a text makes one more line of it. -/
theorem hasLines_append_newline (text : List Char) : HasLines (text.count '\n' + 1) (text ++ ['\n']) := by
  induction text with
  | nil => exact ⟨[[]], rfl, by simp, rfl⟩
  | cons c text ih =>
    obtain ⟨ls, hlength, hnewline, hsplit⟩ := ih
    by_cases hc : c = '\n'
    · subst hc
      refine ⟨[] :: ls, ?_, List.forall_mem_cons.mpr ⟨List.not_mem_nil, hnewline⟩, ?_⟩
      · rw [List.length_cons, List.count_cons_self, hlength]
      · rw [List.flatMap_cons, ← hsplit]
        rfl
    · obtain ⟨line, rest, rfl⟩ := List.exists_cons_of_length_eq_add_one hlength
      obtain ⟨hline, hrest⟩ := List.forall_mem_cons.mp hnewline
      refine ⟨(c :: line) :: rest, ?_, List.forall_mem_cons.mpr ⟨?_, hrest⟩, ?_⟩
      · rw [List.count_cons_of_ne hc, ← hlength]
        rfl
      · simp [hline, Ne.symm hc]
      · rw [List.cons_append, hsplit]
        rfl

/-- How many lines a text has can be told from its line feeds. -/
theorem HasLines.count_newline {number : Nat} {text : List Char} (h : HasLines number text) :
    text.count '\n' = number := by
  obtain ⟨ls, rfl, hnewline, rfl⟩ := h
  induction ls with
  | nil => rfl
  | cons line ls ih =>
    obtain ⟨hline, hothers⟩ := List.forall_mem_cons.mp hnewline
    rw [List.flatMap_cons, List.count_append, List.count_append, List.count_eq_zero_of_not_mem hline, ih hothers,
      List.length_cons, Nat.add_comm]
    rfl

end Bracketed.Text
