import Bracketed.EvalError
import Bracketed.ParseError
import Bracketed.Proofs.Text.Lines
import Mathlib.Data.List.Basic
import Mathlib.Data.List.TakeWhile

namespace Bracketed

/-- Line feeds count the lines before a position, and the characters behind the last of them the columns. -/
theorem lineAndColumn_append {front word : List Char} (hfront : front = [] ∨ front.getLast? = some '\n')
    (hword : '\n' ∉ word) (back : List Char) {column : Nat} (hcolumn : column ≤ word.length) :
    lineAndColumn (front ++ (word ++ back)) (front.length + column) = (front.count '\n', column) := by
  have htake : '\n' ∉ word.take column := fun hmem => hword (List.mem_of_mem_take hmem)
  have hpart : ∀ c ∈ (word.take column).reverse, (c != '\n') = true := by
    intro c hc
    rw [List.mem_reverse] at hc
    rw [bne_iff_ne]
    rintro rfl
    exact htake hc
  have hstop : front.reverse.takeWhile (· != '\n') = [] := by
    rcases hfront with rfl | hlast
    · rfl
    · obtain ⟨before, rfl⟩ := List.getLast?_eq_some_iff.mp hlast
      rw [List.reverse_append]
      rfl
  rw [lineAndColumn, List.take_length_add_append, List.take_append_of_le_length hcolumn, List.count_append,
    List.count_eq_zero_of_not_mem htake, List.reverse_append, List.takeWhile_append_of_pos hpart, hstop,
    List.append_nil, List.length_reverse, List.length_take_of_le hcolumn, Nat.add_zero]

/-- The line and the column of a character are those at which it is. -/
theorem Text.LineAt.lineAndColumn_eq {cs line : List Char} {index number column : Nat}
    (h : LineAt cs index number column line) : lineAndColumn cs index = (number, column) := by
  obtain ⟨front, ending, back, rfl, hfront, hline, hends, rfl, rfl, hcolumn⟩ := h
  cases hends with
  | feed => exact lineAndColumn_append hfront hline _ (Nat.le_of_lt_succ hcolumn)
  | stop => exact lineAndColumn_append hfront hline _ (Nat.le_of_lt hcolumn)
  | returnFeed back =>
    -- A position between the carriage return and the line feed is still one of this line.
    have hreturn : '\n' ∉ line ++ ['\r'] := by simpa using hline
    have hwithin : column ≤ (line ++ ['\r']).length := by
      rw [List.length_append]
      exact Nat.le_of_lt_succ hcolumn
    have hcolumns := lineAndColumn_append hfront hreturn ('\n' :: back) hwithin
    rwa [List.append_assoc] at hcolumns

/-- No digit is a line feed. -/
theorem newline_notMem_toDigits {base : Nat} (hbase : 1 < base) (n : Nat) : '\n' ∉ Nat.toDigits base n := by
  induction n using Nat.strongRecOn with
  | ind n ih =>
    have hdigit (n : Nat) : '\n' ∉ [n.digitChar] := by
      rw [List.mem_singleton]
      exact (Nat.digitChar_ne '\n' rfl).symm
    rcases Nat.lt_or_ge n base with hlt | hge
    · rw [Nat.toDigits_of_lt_base hlt]
      exact hdigit n
    · rw [Nat.toDigits_of_base_le hbase hge, List.mem_append, not_or]
      exact ⟨ih (n / base) (Nat.div_lt_self (by omega) hbase), hdigit (n % base)⟩

theorem newline_notMem_toString (n : Nat) : '\n' ∉ (toString n).toList := by
  rw [Nat.toString_eq_repr, Nat.toList_repr]
  exact newline_notMem_toDigits (by decide) n

/-- A line begins with the mark of a fault. -/
def Text.IsMarked (line : List Char) : Prop :=
  ['>', '>'] <+: line

/-- A line has a caret and no number before it. -/
def Text.IsPointer (line : List Char) : Prop :=
  ∃ shown, line = List.replicate 6 ' ' ++ ([' ', '|', ' '] ++ (shown ++ ['^']))

namespace ContextLine

/-- The line that is marked, without its line break. -/
def marked (number : Nat) (line : List Char) : List Char :=
  ['>', '>', ' '] ++ (paddedNumber number ++ ([' ', '|', ' '] ++ line))

/-- What stands below the marked line. -/
def below (column : Nat) : List Char :=
  List.replicate 6 ' ' ++ ([' ', '|', ' '] ++ (List.replicate column ' ' ++ ['^']))

/-- A line that is not marked. -/
def plain (number : Nat) (line : List Char) : List Char :=
  [' ', ' ', ' '] ++ (paddedNumber number ++ ([' ', '|', ' '] ++ line))

/-- A line of the source, with how many lines there are before it, as it is shown if it is not marked. -/
def shown (l : List Char × Nat) : List Char :=
  plain (l.2 + 1) l.1

theorem render_some (number column : Nat) (line : List Char) :
    render ⟨number, line, some column⟩ = marked number line ++ '\n' :: (below column ++ ['\n']) := by
  simp [render, marked, below]

theorem render_none (number : Nat) (line : List Char) :
    render ⟨number, line, none⟩ = plain number line ++ ['\n'] := by
  simp [render, plain]

theorem newline_notMem_paddedNumber (n : Nat) : '\n' ∉ paddedNumber n := by
  rw [paddedNumber, List.mem_append, not_or]
  exact ⟨by simp, newline_notMem_toString n⟩

theorem newline_notMem_marked (number : Nat) {line : List Char} (h : '\n' ∉ line) : '\n' ∉ marked number line := by
  simp [marked, newline_notMem_paddedNumber, h]

theorem newline_notMem_plain (number : Nat) {line : List Char} (h : '\n' ∉ line) : '\n' ∉ plain number line := by
  simp [plain, newline_notMem_paddedNumber, h]

theorem newline_notMem_below (column : Nat) : '\n' ∉ below column := by
  simp [below]

theorem not_isMarked_plain (number : Nat) (line : List Char) : ¬ Text.IsMarked (plain number line) := by
  simp [Text.IsMarked, plain]

/-- The third place of a number has a digit, however short the number is. -/
theorem isDigit_of_paddedNumber {n : Nat} {c : Char} (h : (paddedNumber n)[2]? = some c) : c.isDigit = true := by
  have hdigits : (toString n).toList = Nat.toDigits 10 n := by rw [Nat.toString_eq_repr, Nat.toList_repr]
  have hpositive : 0 < (Nat.toDigits 10 n).length := Nat.length_toDigits_pos
  rw [paddedNumber, hdigits, List.getElem?_append_right (by rw [List.length_replicate]; omega)] at h
  exact Nat.isDigit_of_mem_toDigits (by decide) (by decide) (List.mem_of_getElem? h)

theorem length_paddedNumber (n : Nat) : (paddedNumber n).length = max 3 (toString n).length := by
  rw [paddedNumber, List.length_append, List.length_replicate, String.length_toList]
  omega

theorem not_isPointer_plain (number : Nat) (line : List Char) : ¬ Text.IsPointer (plain number line) := by
  rintro ⟨shown, hshown⟩
  -- The two would differ in the last of the three places for a number.
  have hlength : 2 < (paddedNumber number).length := by
    rw [length_paddedNumber]
    omega
  have hbehind : paddedNumber number ++ ([' ', '|', ' '] ++ line) =
      List.replicate 3 ' ' ++ ([' ', '|', ' '] ++ (shown ++ ['^'])) :=
    List.append_cancel_left (hshown : [' ', ' ', ' '] ++ _ = [' ', ' ', ' '] ++ _)
  have hblank := congrArg (fun row => row[2]?) hbehind
  simp only [List.getElem?_append_left hlength] at hblank
  exact absurd (isDigit_of_paddedNumber hblank) (by decide)

theorem not_isPointer_marked (number : Nat) (line : List Char) : ¬ Text.IsPointer (marked number line) := by
  simp [Text.IsPointer, marked, List.replicate_succ]

theorem not_isMarked_below (column : Nat) : ¬ Text.IsMarked (below column) := by
  simp [Text.IsMarked, below, List.replicate_succ]

end ContextLine

/-- The text shows where a character of the source is. Of its lines exactly one is marked. It holds the line of the
source that the character is on, with its number counted from one, and the line below it has a caret in the column
of the character. -/
def ShowsPlace (source : List Char) (index : Nat) (text : List Char) : Prop :=
  ∃ (number column : Nat) (line : List Char) (before after : List (List Char)),
    Text.LineAt source index number column line ∧
      text = (before ++ ContextLine.marked (number + 1) line :: ContextLine.below column :: after).flatMap
        (· ++ ['\n']) ∧
      (∀ l ∈ before ++ ContextLine.marked (number + 1) line :: ContextLine.below column :: after, '\n' ∉ l) ∧
      ∀ l ∈ before ++ ContextLine.below column :: after, ¬ Text.IsMarked l

/-- The lines of the source that are at most two lines away from the line `number`, each with how many lines there
are before it. -/
def window (source : List Char) (number : Nat) : List (List Char × Nat) :=
  (Text.lines source).zipIdx.filter fun l => number ≤ l.2 + 2 ∧ l.2 ≤ number + 2

/-- Items in a range of numbers are those that are left when the ends are cut off. -/
private theorem drop_take_zipIdx {α : Type} (l : List α) (start low high : Nat) :
    ((l.zipIdx start).take high).drop low =
      (l.zipIdx start).filter fun x => start + low ≤ x.2 ∧ x.2 < start + high := by
  induction l generalizing start low high with
  | nil => simp
  | cons x l ih =>
    cases high with
    | zero =>
      -- Nothing is taken, and all numbers are `start` or more.
      rw [List.take_zero, List.drop_nil]
      symm
      rw [List.filter_eq_nil_iff]
      intro y hy
      have hstart := List.le_snd_of_mem_zipIdx hy
      simp
      omega
    | succ high =>
      cases low with
      | zero =>
        have hrest := ih (start + 1) 0 high
        rw [List.drop_zero] at hrest
        rw [List.zipIdx_cons, List.take_succ_cons, List.drop_zero, List.filter_cons_of_pos (by simp), hrest]
        congr 1
        apply List.filter_congr
        intro y hy
        have hstart := List.le_snd_of_mem_zipIdx hy
        rw [decide_eq_decide]
        omega
      | succ low =>
        rw [List.zipIdx_cons, List.take_succ_cons, List.drop_succ_cons, List.filter_cons_of_neg (by simp), ih]
        apply List.filter_congr
        intro y hy
        rw [decide_eq_decide]
        omega

/-- The lines around a position are those of the window, and the line that it is on has the caret. -/
theorem contextLines_eq {source : List Char} {index number column : Nat}
    (h : lineAndColumn source index = (number, column)) :
    contextLines source index = (window source number).map fun l =>
      { number := l.2 + 1, text := l.1, caret := if l.2 = number then some column else none } := by
  have hrange : (((Text.lines source).zipIdx.take (number + 3)).drop (number - 2)) = window source number := by
    rw [drop_take_zipIdx, window]
    apply List.filter_congr
    intro l _
    rw [decide_eq_decide]
    omega
  rw [contextLines, h]
  dsimp only
  rw [hrange]

/-- A line of the source stands in the window around it once. -/
theorem exists_window_eq {source line : List Char} {number : Nat}
    (hline : (Text.lines source)[number]? = some line) :
    ∃ before after, window source number = before ++ (line, number) :: after ∧
      ∀ l ∈ before ++ after, l.2 ≠ number ∧ l.1 ∈ Text.lines source := by
  obtain ⟨hlt, hget⟩ := List.getElem?_eq_some_iff.mp hline
  obtain ⟨front, back, hlines, rfl⟩ : ∃ front back, Text.lines source = front ++ line :: back ∧
      front.length = number := by
    refine ⟨(Text.lines source).take number, (Text.lines source).drop (number + 1), ?_,
      List.length_take_of_le (Nat.le_of_lt hlt)⟩
    rw [← hget, List.getElem_cons_drop, List.take_append_drop]
  let near : List Char × Nat → Bool := fun l => front.length ≤ l.2 + 2 ∧ l.2 ≤ front.length + 2
  refine ⟨front.zipIdx.filter near, (back.zipIdx (front.length + 1)).filter near, ?_, ?_⟩
  · rw [window, hlines, List.zipIdx_append, List.zipIdx_cons, Nat.zero_add, List.filter_append,
      List.filter_cons_of_pos (by simp)]
  · intro l hl
    rw [hlines]
    rcases List.mem_append.mp hl with hbefore | hafter
    · have hmem := (List.mem_filter.mp hbefore).1
      exact ⟨Nat.ne_of_lt (List.snd_lt_of_mem_zipIdx hmem),
        List.mem_append_left _ (List.fst_mem_of_mem_zipIdx hmem)⟩
    · have hmem := (List.mem_filter.mp hafter).1
      exact ⟨Nat.ne_of_gt (List.le_snd_of_mem_zipIdx hmem),
        List.mem_append_right _ (List.mem_cons_of_mem line (List.fst_mem_of_mem_zipIdx hmem))⟩

/-- The rows of the text show the lines of the source around one of its characters, each unaltered and with its
number counted from one: as many lines as there are, but at most two on either side of the line that the character
is on. That line alone is marked, and the row below it is the only one that has a caret in place of a number. -/
def ShowsWindow (source : List Char) (index : Nat) (text : List Char) : Prop :=
  ∃ (column : Nat) (line : List Char) (before after : List (List Char × Nat)),
    let number := (source.take index).count '\n'
    let marked := ContextLine.marked (number + 1) line
    let pointer := ContextLine.below column
    let above := before.map ContextLine.shown
    let beneath := after.map ContextLine.shown
    Text.LineAt source index number column line ∧ window source number = before ++ (line, number) :: after ∧
      text = (above ++ marked :: pointer :: beneath).flatMap (· ++ ['\n']) ∧
      (∀ row ∈ above ++ marked :: pointer :: beneath, '\n' ∉ row) ∧
      Text.IsMarked marked ∧ (∀ row ∈ above ++ pointer :: beneath, ¬ Text.IsMarked row) ∧
      Text.IsPointer pointer ∧ ∀ row ∈ above ++ marked :: beneath, ¬ Text.IsPointer row

theorem showsWindow_sourceContext {source : String} {index : Nat} (hindex : index < source.length) :
    ShowsWindow source.toList index (sourceContext source index).toList := by
  rw [← String.length_toList] at hindex
  have hlines := Text.isLines_lines source.toList
  obtain ⟨number, column, line, hnth, hat⟩ := hlines.exists_lineAt hindex
  have hplace := hat.lineAndColumn_eq
  have hnumber : (source.toList.take index).count '\n' = number := congrArg Prod.fst hplace
  obtain ⟨before, after, hwindow, hothers⟩ := exists_window_eq hnth
  rw [List.forall_mem_append] at hothers
  have hrows {ls : List (List Char × Nat)} (h : ∀ l ∈ ls, l.2 ≠ number ∧ l.1 ∈ Text.lines source.toList) :
      (ls.flatMap fun l => ContextLine.render ⟨l.2 + 1, l.1, if l.2 = number then some column else none⟩) =
        (ls.map ContextLine.shown).flatMap (· ++ ['\n']) := by
    rw [List.flatMap_map]
    apply List.flatMap_congr
    intro l hl
    rw [if_neg (h l hl).1, ContextLine.render_none, ContextLine.shown]
  have hline : '\n' ∉ line := hlines.newline_notMem line (List.mem_of_getElem? hnth)
  have hnewline (l : List Char × Nat) (h : l.1 ∈ Text.lines source.toList) : '\n' ∉ ContextLine.shown l :=
    ContextLine.newline_notMem_plain _ (hlines.newline_notMem l.1 h)
  refine ⟨column, line, before, after, ?_⟩
  simp only [hnumber, List.forall_mem_append, List.forall_mem_cons, List.forall_mem_map]
  refine ⟨hat, hwindow, ?_, ?_, ⟨_, rfl⟩, ?_, ⟨_, rfl⟩, ?_⟩
  · rw [sourceContext, String.toList_ofList, contextLines_eq hplace, hwindow, List.flatMap_map, List.flatMap_append,
      List.flatMap_cons, hrows hothers.1, hrows hothers.2, if_pos rfl, ContextLine.render_some]
    simp
  · exact ⟨fun l hl => hnewline l (hothers.1 l hl).2, ContextLine.newline_notMem_marked _ hline,
      ContextLine.newline_notMem_below column, fun l hl => hnewline l (hothers.2 l hl).2⟩
  · exact ⟨fun _ _ => ContextLine.not_isMarked_plain _ _, ContextLine.not_isMarked_below column,
      fun _ _ => ContextLine.not_isMarked_plain _ _⟩
  · exact ⟨fun _ _ => ContextLine.not_isPointer_plain _ _, ContextLine.not_isPointer_marked _ line,
      fun _ _ => ContextLine.not_isPointer_plain _ _⟩

/-- Positions beyond the end are shown like the end. -/
theorem sourceContext_of_length_le {source : String} {index : Nat} (h : source.length ≤ index) :
    sourceContext source index = sourceContext source source.length := by
  have htake : source.toList.take index = source.toList.take source.length := by
    rw [List.take_of_length_le (by rwa [String.length_toList]), List.take_of_length_le (by rw [String.length_toList])]
  rw [sourceContext, sourceContext, contextLines, contextLines, lineAndColumn, lineAndColumn, htake]

/-- Around a character of the source the window of lines is shown that it is in the middle of, and around any other
position that which is shown around the end. -/
theorem sourceContext_window (source : String) :
    (∀ index < source.length, ShowsWindow source.toList index (sourceContext source index).toList) ∧
      ∀ index, source.length ≤ index → sourceContext source index = sourceContext source source.length :=
  ⟨fun _ hindex => showsWindow_sourceContext hindex, fun _ hindex => sourceContext_of_length_le hindex⟩

/-- The position is that of the line feed in a line break of two characters. -/
theorem sourceContext_window_mixed_breaks :
    let source := "a\r\n\nb\nc\n"
    let shown := ">>   1 | a\n       |   ^\n     2 | \n     3 | b\n"
    sourceContext source 2 = shown ∧ ShowsWindow source.toList 2 shown.toList ∧
      sourceContext source 9 = sourceContext source source.length := by
  intro source shown
  have hshown : sourceContext source 2 = shown := by decide
  have hwindow := (sourceContext_window source).1 2 (by decide)
  rw [hshown] at hwindow
  exact ⟨hshown, hwindow, (sourceContext_window source).2 9 (by decide)⟩

/-- A text of one line that cannot be taken for a marked one. -/
structure Text.IsPlainLine (s : String) : Prop where
  newline_notMem : '\n' ∉ s.toList
  head : ∃ c, s.toList.head? = some c ∧ c ≠ '>'

theorem Text.IsPlainLine.append {s t : String} (h : IsPlainLine s) (ht : '\n' ∉ t.toList) :
    IsPlainLine (s ++ t) := by
  obtain ⟨c, hc, hne⟩ := h.head
  refine ⟨?_, c, ?_, hne⟩
  · rw [String.toList_append, List.mem_append, not_or]
    exact ⟨h.newline_notMem, ht⟩
  · rw [String.toList_append, List.head?_append, hc, Option.some_or]

theorem Text.IsPlainLine.not_isMarked {s : String} (h : IsPlainLine s) : ¬ IsMarked s.toList := by
  rintro ⟨rest, hrest⟩
  obtain ⟨c, hc, hne⟩ := h.head
  rw [← hrest] at hc
  exact hne (Option.some.inj hc).symm

/-- Every position inside a source can be shown behind a message of one line. -/
theorem showsPlace_withSourceContext {message source : String} (hmessage : Text.IsPlainLine message) {index : Nat}
    (hindex : index < source.length) :
    ShowsPlace source.toList index (withSourceContext message source (some index)).toList := by
  obtain ⟨column, line, before, after, hat, -, htext, hnewline, -, hmarked, -⟩ := showsWindow_sourceContext hindex
  have hnil : ¬ Text.IsMarked [] := by simp [Text.IsMarked]
  refine ⟨_, column, line, message.toList :: [] :: before.map ContextLine.shown, after.map ContextLine.shown, hat,
    ?_, ?_, ?_⟩
  · rw [withSourceContext, String.toList_append, htext]
    simp
  · exact List.forall_mem_cons.mpr ⟨hmessage.newline_notMem, List.forall_mem_cons.mpr ⟨List.not_mem_nil, hnewline⟩⟩
  · exact List.forall_mem_cons.mpr ⟨hmessage.not_isMarked, List.forall_mem_cons.mpr ⟨hnil, hmarked⟩⟩

/-- A quoted text has no line feed in it. -/
theorem Text.newline_notMem_quote (s : String) : '\n' ∉ (quote s).toList := by
  have hchar (c : Char) : '\n' ∉ quoteChar c := by
    fun_cases quoteChar c
    case case7 hnewline _ _ _ _ => simpa using Ne.symm hnewline
    case case8 => simp [hexDigits, newline_notMem_toDigits]
    all_goals decide
  simp [quote, hchar]

theorem ParseError.isPlainLine_message {e : ParseError} {index : Nat} (h : e.index = some index) :
    Text.IsPlainLine e.message := by
  cases e with
  | unbalancedEnd delimiter position =>
    have hbegin : Text.IsPlainLine "unbalanced end delimiter " := ⟨by decide, 'u', by decide, by decide⟩
    exact ((hbegin.append (Text.newline_notMem_quote delimiter)).append (by decide)).append
      (newline_notMem_toString position)
  | unclosedGroup delimiter position =>
    have hbegin : Text.IsPlainLine "group opened with " := ⟨by decide, 'g', by decide, by decide⟩
    exact (((hbegin.append (Text.newline_notMem_quote delimiter)).append (by decide)).append
      (newline_notMem_toString position)).append (by decide)
  | emptyToken what => cases h

theorem EvalError.isPlainLine_message {e : EvalError} {index : Nat} (h : e.index = some index) :
    Text.IsPlainLine e.message := by
  have hplace : '\n' ∉ (" at character " ++ toString index).toList := by
    rw [String.toList_append, List.mem_append, not_or]
    exact ⟨by decide, newline_notMem_toString index⟩
  cases e with
  | missingOperator position =>
    cases h
    have hbegin : Text.IsPlainLine "missing operator between operands" := ⟨by decide, 'm', by decide, by decide⟩
    exact hbegin.append hplace
  | invalidOperand fault position =>
    cases h
    have hbegin : Text.IsPlainLine "invalid operand: " := ⟨by decide, 'i', by decide, by decide⟩
    have hfault : '\n' ∉ fault.message.toList := by cases fault <;> decide
    exact (hbegin.append hfault).append hplace

/-- A parse error that has a position inside the source shows it there. -/
theorem ParseError.showsPlace_inContext {e : ParseError} {source : String} {index : Nat}
    (h : e.index = some index) (hindex : index < source.length) :
    ShowsPlace source.toList index (e.inContext source).toList := by
  rw [inContext, h]
  exact showsPlace_withSourceContext (isPlainLine_message h) hindex

/-- An evaluation error that has a position inside the source shows it there. -/
theorem EvalError.showsPlace_inContext {e : EvalError} {source : String} {index : Nat}
    (h : e.index = some index) (hindex : index < source.length) :
    ShowsPlace source.toList index (e.inContext source).toList := by
  rw [inContext, h]
  exact showsPlace_withSourceContext (isPlainLine_message h) hindex

end Bracketed
