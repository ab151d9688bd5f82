import Bracketed.Proofs.SourceContext

namespace Bracketed

namespace Text

/-- A line feed breaks a line, and so does a carriage return directly before one. -/
def BreaksLine (cs : List Char) (index : Nat) : Prop :=
  cs[index]? = some '\n' ∨ cs[index]? = some '\r' ∧ cs[index + 1]? = some '\n'

theorem getElem?_append_length_add (front back : List Char) (i : Nat) : (front ++ back)[front.length + i]? = back[i]? := by
  rw [List.getElem?_append_right (Nat.le_add_right _ _), Nat.add_sub_cancel_left]

/-- A character that breaks no line stands in its line at the column that it has. -/
theorem LineAt.getElem?_column {cs text : List Char} {index number column : Nat}
    (h : LineAt cs index number column text) (hbreak : ¬ BreaksLine cs index) :
    column < text.length ∧ text[column]? = cs[index]? := by
  obtain ⟨front, ending, back, rfl, -, -, hends, -, rfl, hcolumn⟩ := h
  have hwithin : column < text.length := by
    by_contra hbeyond
    obtain ⟨i, rfl⟩ := Nat.exists_eq_add_of_le (Nat.le_of_not_lt hbeyond)
    simp only [BreaksLine, Nat.add_assoc, getElem?_append_length_add] at hbreak
    cases hends with
    | feed =>
      obtain rfl : i = 0 := by simpa using hcolumn
      exact hbreak (.inl rfl)
    | returnFeed =>
      obtain rfl | rfl : i = 0 ∨ i = 1 := by
        simp at hcolumn
        omega
      · exact hbreak (.inr ⟨rfl, rfl⟩)
      · exact hbreak (.inl rfl)
    | stop => exact absurd hcolumn hbeyond
  refine ⟨hwithin, ?_⟩
  rw [getElem?_append_length_add, List.getElem?_append_left hwithin]

/-- A character that occurs once occurs at one place. -/
theorem eq_of_count_eq_one {c : Char} {cs : List Char} (hcount : cs.count c = 1) {i j : Nat}
    (hi : cs[i]? = some c) (hj : cs[j]? = some c) : i = j := by
  have hsplit {k : Nat} (hk : cs[k]? = some c) : cs = cs.take k ++ c :: cs.drop (k + 1) := by
    obtain ⟨hlt, rfl⟩ := List.getElem?_eq_some_iff.mp hk
    rw [List.getElem_cons_drop, List.take_append_drop]
  have halone : c ∉ cs.take j ∧ c ∉ cs.drop (j + 1) := by
    rw [hsplit hj, List.count_append, List.count_cons_self] at hcount
    rw [← List.count_eq_zero, ← List.count_eq_zero]
    omega
  have hsame := (hsplit hj).symm.trans (hsplit hi)
  obtain ⟨htake, -, -⟩ := (List.append_cons_inj_of_notMem halone.1 halone.2).mp hsame
  have hlength := congrArg List.length htake
  obtain ⟨hlt, -⟩ := List.getElem?_eq_some_iff.mp hi
  obtain ⟨hlt', -⟩ := List.getElem?_eq_some_iff.mp hj
  rw [List.length_take_of_le (Nat.le_of_lt hlt), List.length_take_of_le (Nat.le_of_lt hlt')] at hlength
  exact hlength.symm

end Text

namespace ContextLine

/-- What stands before the line in the row that is marked. -/
def gutter (number : Nat) : List Char :=
  ['>', '>', ' '] ++ (paddedNumber number ++ [' ', '|', ' '])

theorem marked_eq_gutter_append (number : Nat) (line : List Char) : marked number line = gutter number ++ line := by
  simp [gutter, marked]

theorem length_gutter (number : Nat) : (gutter number).length = max 3 (toString number).length + 6 := by
  simp [gutter, length_paddedNumber]

theorem getElem?_below (column : Nat) : (below column)[column + 9]? = some '^' := by
  rw [below, ← List.append_assoc, ← List.append_assoc, List.getElem?_append_right (by simp)]
  simp

theorem count_caret_below (column : Nat) : (below column).count '^' = 1 := by
  simp [below, List.count_append, List.count_replicate]

end ContextLine

/-- The rows of the text show a character of the source in the one that is marked, behind `offset` other characters,
and in the row below it a caret behind `caret` others. -/
def ShowsCaret (source : List Char) (index offset caret : Nat) (text : List Char) : Prop :=
  ∃ (number column : Nat) (line pointer : List Char) (before after : List (List Char)),
    let marked := ContextLine.marked (number + 1) line
    Text.LineAt source index number column line ∧ offset = (ContextLine.gutter (number + 1)).length + column ∧
      marked[offset]? = source[index]? ∧ pointer[caret]? = some '^' ∧ pointer.count '^' = 1 ∧
      text = (before ++ marked :: pointer :: after).flatMap (· ++ ['\n']) ∧
      (∀ row ∈ before ++ marked :: pointer :: after, '\n' ∉ row) ∧
      Text.IsMarked marked ∧ ∀ row ∈ before ++ pointer :: after, ¬ Text.IsMarked row

/-- A text shows a character at one place, and one caret. -/
theorem ShowsCaret.unique {source text : List Char} {index offset caret offset' caret' : Nat}
    (h : ShowsCaret source index offset caret text) (h' : ShowsCaret source index offset' caret' text) :
    offset = offset' ∧ caret = caret' := by
  obtain ⟨number, column, line, pointer, before, after, hat, rfl, -, hcaret, hcount, htext, hnewline, hmarked,
    hothers⟩ := h
  obtain ⟨number', column', line', pointer', before', after', hat', rfl, -, hcaret', hcount', htext', hnewline',
    hmarked', hothers'⟩ := h'
  obtain ⟨rfl, rfl⟩ := Prod.mk.inj (hat.lineAndColumn_eq.symm.trans hat'.lineAndColumn_eq)
  refine ⟨rfl, ?_⟩
  have hrows := Text.flatMap_newline_inj hnewline hnewline' (htext.symm.trans htext')
  rw [List.forall_mem_append] at hothers
  have hbefore (hmem : ContextLine.marked (number + 1) line' ∈ before) := hothers.1 _ hmem hmarked'
  have hafter (hmem : ContextLine.marked (number + 1) line' ∈ pointer :: after) := hothers.2 _ hmem hmarked'
  obtain ⟨-, -, hbehind⟩ := (List.append_cons_inj_of_notMem hbefore hafter).mp hrows
  obtain ⟨rfl, -⟩ := List.cons_eq_cons.mp hbehind
  exact Text.eq_of_count_eq_one hcount hcaret hcaret'

/-- The caret is where a number of three digits would have put it. -/
theorem showsCaret_sourceContext {source : String} {index number column : Nat} (hindex : index < source.length)
    (hbreak : ¬ Text.BreaksLine source.toList index) (hplace : lineAndColumn source.toList index = (number, column)) :
    ShowsCaret source.toList index ((ContextLine.gutter (number + 1)).length + column) (column + 9)
      (sourceContext source index).toList := by
  obtain ⟨column, line, before, after, hat, -, htext, hnewline, hmarked, hplain, -⟩ :=
    showsWindow_sourceContext hindex
  obtain ⟨rfl, rfl⟩ := Prod.mk.inj (hplace.symm.trans hat.lineAndColumn_eq)
  obtain ⟨-, hchar⟩ := hat.getElem?_column hbreak
  refine ⟨_, _, line, ContextLine.below _, before.map ContextLine.shown, after.map ContextLine.shown, hat, rfl, ?_,
    ContextLine.getElem?_below _, ContextLine.count_caret_below _, htext, hnewline, hmarked, hplain⟩
  rw [ContextLine.marked_eq_gutter_append, Text.getElem?_append_length_add, hchar]

/-- A number with more than three digits shifts the line to the right, but not the caret, which is therefore under
the character exactly up to the line with the number 999. -/
theorem exists_showsCaret (source : String) {index : Nat} (hindex : index < source.length)
    (hbreak : ¬ Text.BreaksLine source.toList index) :
    ∃ offset caret, ShowsCaret source.toList index offset caret (sourceContext source index).toList ∧
      offset = caret + ((toString ((source.toList.take index).count '\n' + 1)).length - 3) ∧
      (caret = offset ↔ (source.toList.take index).count '\n' + 1 < 1000) := by
  have hcaret := showsCaret_sourceContext hindex hbreak rfl
  have hgutter := ContextLine.length_gutter ((source.toList.take index).count '\n' + 1)
  have hdigits : (toString ((source.toList.take index).count '\n' + 1)).length ≤ 3 ↔
      (source.toList.take index).count '\n' + 1 < 1000 := Nat.length_repr_le_iff (by decide)
  refine ⟨_, _, hcaret, ?_, ?_⟩
  · omega
  · omega

theorem exists_showsCaret_second_line :
    let source := "a\r\nb\rc"
    5 < source.length ∧ ¬ Text.BreaksLine source.toList 5 ∧
      ∃ offset caret, ShowsCaret source.toList 5 offset caret (sourceContext source 5).toList ∧
        offset = caret + ((toString ((source.toList.take 5).count '\n' + 1)).length - 3) ∧
        (caret = offset ↔ (source.toList.take 5).count '\n' + 1 < 1000) := by
  intro source
  have hindex : 5 < source.length := by decide
  have hbreak : ¬ Text.BreaksLine source.toList 5 := by
    rw [Text.BreaksLine]
    decide
  exact ⟨hindex, hbreak, exists_showsCaret source hindex hbreak⟩

/-- In the thousandth line the caret stands one place to the left of the character. -/
theorem not_showsCaret_thousandth_line :
    let source := String.ofList (List.replicate 999 '\n' ++ ['x'])
    999 < source.length ∧ ¬ Text.BreaksLine source.toList 999 ∧
      ShowsCaret source.toList 999 10 9 (sourceContext source 999).toList ∧
      ¬ ∃ place, ShowsCaret source.toList 999 place place (sourceContext source 999).toList := by
  intro source
  have hsource : source.toList = List.replicate 999 '\n' ++ ['x'] := String.toList_ofList
  have hindex : 999 < source.length := by
    rw [← String.length_toList, hsource, List.length_append, List.length_replicate]
    decide
  have hchar : source.toList[999]? = some 'x' := by
    rw [hsource, List.getElem?_append_right (Nat.le_of_eq List.length_replicate), List.length_replicate]
    rfl
  have hbreak : ¬ Text.BreaksLine source.toList 999 := by
    rw [Text.BreaksLine, hchar]
    simp
  have hplace : lineAndColumn source.toList 999 = (999, 0) := by
    have hfront : (List.replicate 999 '\n').getLast? = some '\n' := by
      rw [List.getLast?_replicate]
      rfl
    have hword : '\n' ∉ ['x'] := by decide
    have happend := lineAndColumn_append (.inr hfront) hword [] (Nat.zero_le _)
    rwa [List.append_nil, List.length_replicate, List.count_replicate_self, ← hsource] at happend
  have hcaret := showsCaret_sourceContext hindex hbreak hplace
  have hgutter : (ContextLine.gutter 1000).length = 10 := by decide
  rw [hgutter] at hcaret
  refine ⟨hindex, hbreak, hcaret, ?_⟩
  rintro ⟨place, hthere⟩
  obtain ⟨hoffset, hpointer⟩ := hcaret.unique hthere
  exact absurd (hoffset.trans hpointer.symm) (by decide)

end Bracketed
