import Bracketed.Proofs.Evaluation.Fault
import Bracketed.Proofs.SourceContext

namespace Bracketed

variable {T : Type}

namespace Vocabulary

/-- If a text cannot be read as tokens, it is because of a delimiter in it, or because of a group that was open
before it. -/
theorem exists_index_of_tokensFrom {v : Vocabulary} {enclosing : List (Nat × Grouping)} {position limit : Nat}
    {cs : List Char} {err : ParseError} (h : v.tokensFrom enclosing position cs = .error err)
    (hlimit : position + cs.length ≤ limit) (hopen : ∀ o ∈ enclosing, o.1 < limit) :
    ∃ i, err.index = some i ∧ i < limit := by
  fun_induction v.tokensFrom enclosing position cs with
  | case1 => cases h
  | case2 position start g outer =>
    cases h
    exact ⟨start, rfl, hopen _ List.mem_cons_self⟩
  | case3 enclosing position c cs g htoken =>
    cases h
    rw [List.length_cons] at hlimit
    exact ⟨position, rfl, by omega⟩
  | case4 enclosing position c cs token htoken ih =>
    have hfinds : v.Finds (enclosing.head?.map Prod.snd) (c :: cs) token := ⟨c, cs, rfl, htoken⟩
    have hlength : token.length ≤ cs.length + 1 := hfinds.spec.2.length_le
    rw [List.length_cons] at hlimit
    cases hbehind : v.tokensFrom (openAfter enclosing position token) (position + token.length)
        (cs.drop (token.length - 1)) with
    | ok tokens =>
      rw [hbehind] at h
      cases h
    | error e =>
      rw [hbehind] at h
      cases h
      refine ih hbehind ?_ ?_
      · rw [List.length_drop]
        omega
      · cases token with
        | opening g => exact List.forall_mem_cons.mpr ⟨by omega, hopen⟩
        | closing g => exact fun o ho => hopen o (List.mem_of_mem_tail ho)
        | operator | char => exact hopen

end Vocabulary

namespace Forest

/-- The positions at which the nodes begin, at all depths. -/
def starts : Forest → List Nat
  | nil => []
  | value v rest => v.span.start :: rest.starts
  | operator o rest => o.span.start :: rest.starts
  | group e content rest => e.span.start :: (content.starts ++ rest.starts)

end Forest

/-- Every node that is scanned from a text begins at a character of it. -/
theorem Vocabulary.Scans.start_lt {v : Vocabulary} (hv : v.Valid) {enclosing : Option Grouping} {b : Boundary}
    {position padding : Nat} {text rest : List Char} {f : Forest}
    (h : v.Scans enclosing b position text rest padding f) : ∀ i ∈ f.starts, i < position + text.length := by
  induction h with
  | stop enclosing position rest => exact List.forall_mem_nil _
  | blanks hpasses hblank htoken ih =>
    rw [List.length_append]
    exact fun i hi => Nat.lt_of_lt_of_le (ih i hi) (by omega)
  | value hpasses hlead hword htrail htoken ih =>
    have hpositive := List.length_pos_iff.mpr hword.ne_nil
    rw [Forest.starts, List.forall_mem_cons]
    simp only [List.length_append] at ih ⊢
    exact ⟨by omega, fun i hi => Nat.lt_of_lt_of_le (ih i hi) (by omega)⟩
  | operator hfinds hrun ih =>
    have hne := hv.operator _ (List.mem_of_getElem? hfinds.spec.1)
    have hpositive := List.length_pos_iff.mpr (mt String.toList_eq_nil_iff.mp hne)
    rw [Forest.starts, List.forall_mem_cons]
    simp only [List.length_append, String.length_toList] at hpositive ⊢
    exact ⟨by omega, fun i hi => Nat.lt_of_lt_of_le (ih i hi) (by omega)⟩
  | group hopening hcontent hclosing hstop hrun ihc ihr =>
    have hne := hv.opening _ hopening.spec.1
    have hpositive := List.length_pos_iff.mpr (mt String.toList_eq_nil_iff.mp hne)
    rw [Forest.starts, List.forall_mem_cons, List.forall_mem_append]
    simp only [List.length_append, String.length_toList] at hpositive ⊢
    exact ⟨by omega, fun i hi => Nat.lt_of_lt_of_le (ihc i hi) (by omega),
      fun i hi => Nat.lt_of_lt_of_le (ihr i hi) (by omega)⟩

/-- If the error has a position, it is one before `limit`. -/
def EvalError.IsBefore (limit : Nat) (e : EvalError) : Prop :=
  ∀ i, e.index = some i → i < limit

theorem EvalError.isBefore_of_index {limit i : Nat} {e : EvalError} (h : e.index = some i) (hi : i < limit) :
    e.IsBefore limit := by
  intro j hj
  rw [h] at hj
  cases hj
  exact hi

theorem EvalError.IsBefore.orAt {limit position : Nat} {e : EvalError} (h : e.IsBefore limit)
    (hposition : position < limit) : (e.orAt position).IsBefore limit := by
  intro i hi
  rw [index_orAt, Option.or_eq_some_iff, Option.some.injEq] at hi
  rcases hi with hi | ⟨-, rfl⟩
  · exact h i hi
  · exact hposition

namespace Expected

/-- What is expected is not for the sake of anything that stands at `limit` or behind it. -/
def IsBefore (limit : Nat) : Expected → Prop
  | first => True
  | right before => before < limit
  | applied position _ => position < limit
  | operator => True

variable {limit start : Nat} {expected : Expected} {a : Associativity} {err : EvalError}

theorem IsBefore.position_lt (h : expected.IsBefore limit) (hstart : start < limit) :
    expected.position a start < limit := by
  cases expected with
  | first | operator => exact hstart
  | applied position stray => exact h
  | right before =>
    cases a with
    | left => exact h
    | right => exact hstart

theorem IsBefore.faultAtEnd (h : expected.IsBefore limit) (herr : expected.faultAtEnd = some err) :
    err.IsBefore limit := by
  cases expected with
  | operator => cases herr
  | first =>
    cases herr
    rintro i ⟨⟩
  | right | applied =>
    cases herr
    exact EvalError.isBefore_of_index rfl h

theorem IsBefore.faultAtBinary (h : expected.IsBefore limit) (hstart : start < limit)
    (herr : expected.faultAtBinary a start = some err) : err.IsBefore limit := by
  cases expected with
  | operator => cases herr
  | first =>
    cases herr
    exact EvalError.isBefore_of_index rfl hstart
  | applied =>
    cases herr
    exact EvalError.isBefore_of_index rfl h
  | right before =>
    cases a with
    | left =>
      cases herr
      exact EvalError.isBefore_of_index rfl h
    | right =>
      cases herr
      exact EvalError.isBefore_of_index rfl hstart

theorem IsBefore.faultAtOperand (h : expected.IsBefore limit) (hstart : start < limit)
    (herr : expected.faultAtOperand a start = some err) : err.IsBefore limit := by
  rw [Expected.faultAtOperand] at herr
  split at herr
  · cases herr
    exact EvalError.isBefore_of_index rfl (h.position_lt hstart)
  · cases herr

end Expected

namespace Forest

variable {operators : List (Operator T)} {a : Associativity} {limit : Nat}

/-- Faults are reported where nodes begin. -/
theorem isBefore_of_fault {f : Forest} (hstarts : ∀ i ∈ f.starts, i < limit) {expected : Expected}
    {err : EvalError} (h : f.fault operators a expected = some err) (hexpected : expected.IsBefore limit) :
    err.IsBefore limit := by
  induction f generalizing expected err with
  | nil => exact hexpected.faultAtEnd h
  | value v rest ih =>
    obtain ⟨hstart, hrest⟩ := List.forall_mem_cons.mp hstarts
    rw [fault, Option.or_eq_some_iff] at h
    rcases h with h | ⟨-, h⟩
    · exact hexpected.faultAtOperand hstart h
    · exact ih hrest h trivial
  | operator o rest ih =>
    obtain ⟨hstart, hrest⟩ := List.forall_mem_cons.mp hstarts
    rw [fault] at h
    split at h
    · rw [Option.or_eq_some_iff] at h
      rcases h with h | ⟨-, h⟩
      · exact hexpected.faultAtBinary hstart h
      · exact ih hrest h hstart
    · exact ih hrest h (hexpected.position_lt hstart)
  | group e content rest ihc ihr =>
    obtain ⟨hstart, hbelow⟩ := List.forall_mem_cons.mp hstarts
    obtain ⟨hcontent, hrest⟩ := List.forall_mem_append.mp hbelow
    rw [fault, Option.or_eq_some_iff, Option.or_eq_some_iff, Option.map_eq_some_iff] at h
    rcases h with ⟨inner, hinner, rfl⟩ | ⟨-, h | ⟨-, h⟩⟩
    · exact (ihc hcontent hinner trivial).orAt (hexpected.position_lt hstart)
    · exact hexpected.faultAtOperand hstart h
    · exact ihr hrest h trivial

end Forest

namespace Parser

variable {p : Parser T} {source : String}

/-- A text that the vocabulary cannot be blamed for fails to parse because of a delimiter in it. -/
theorem exists_index_of_parse_error (hcheck : p.vocabulary.check = .ok ()) {err : ParseError}
    (h : p.parse source = .error err) : ∃ i, err.index = some i ∧ i < source.length := by
  have htokens := (parse_eq_error_iff hcheck).mp h
  refine Vocabulary.exists_index_of_tokensFrom htokens ?_ (List.forall_mem_nil _)
  rw [Nat.zero_add, String.length_toList]

/-- An evaluation fails at a character of the text, unless there is none. -/
theorem exists_index_of_evaluateWith_error (hsource : source ≠ "") {e : Expression T}
    (h : p.parse source = .ok e) {leaf : String → T} {err : EvalError} (herr : e.evaluateWith leaf = .error err) :
    ∃ i, err.index = some i ∧ i < source.length := by
  obtain ⟨hvalid, hscans, _⟩ := parse_spec h
  have hfault := (error?_run h leaf).symm.trans (Run.error?_eq_some_iff.mpr herr)
  obtain ⟨inner, hinner, rfl⟩ := Option.map_eq_some_iff.mp hfault
  have hpositive : 0 < source.length := by
    rw [← String.length_toList]
    exact List.length_pos_iff.mpr (mt String.toList_eq_nil_iff.mp hsource)
  have hstarts := hscans.start_lt hvalid
  rw [Nat.zero_add, String.length_toList] at hstarts
  have hbefore := (Forest.isBefore_of_fault hstarts hinner trivial).orAt hpositive
  obtain ⟨i, hi⟩ : ∃ i, (inner.orAt 0).index = some i := by
    rw [EvalError.index_orAt]
    cases inner.index with
    | none => exact ⟨0, rfl⟩
    | some i => exact ⟨i, rfl⟩
  exact ⟨i, hi, hbefore i hi⟩

/-- Whatever goes wrong with a text that is not empty goes wrong at one of its characters, whether it is read or
evaluated, with the parser's own leaf function or with another one. The error shown in its context has the line
marked that this character is on. -/
theorem errors_show_place (hcheck : p.vocabulary.check = .ok ()) (hsource : source ≠ "") :
    (∀ err, p.parse source = .error err →
      ∃ i, err.index = some i ∧ i < source.length ∧ ShowsPlace source.toList i (err.inContext source).toList) ∧
    ∀ e leaf err, p.parse source = .ok e → e.evaluateWith leaf = .error err →
      ∃ i, err.index = some i ∧ i < source.length ∧ ShowsPlace source.toList i (err.inContext source).toList := by
  constructor
  · intro err h
    obtain ⟨i, hindex, hi⟩ := exists_index_of_parse_error hcheck h
    exact ⟨i, hindex, hi, ParseError.showsPlace_inContext hindex hi⟩
  · intro e leaf err h herr
    obtain ⟨i, hindex, hi⟩ := exists_index_of_evaluateWith_error hsource h herr
    exact ⟨i, hindex, hi, EvalError.showsPlace_inContext hindex hi⟩

theorem errors_show_place_bracketing :
    let content := Forest.value ⟨"a", 2, ⟨0, 1⟩⟩ <| .operator ⟨1, ⟨2, 3⟩⟩ <| .operator ⟨0, ⟨4, 5⟩⟩ .nil
    let e := { bracketed with source := "a\n- ~", content }
    let unclosed := ParseError.unclosedGroup "(" 4
    let missing := EvalError.invalidOperand .missingRight (some 2)
    bracketing.vocabulary.check = .ok () ∧ bracketing.parse "a - (\nb" = .error unclosed ∧
      bracketing.parse "a\n- ~" = .ok e ∧ e.evaluateWith id = .error missing ∧
      ShowsPlace "a - (\nb".toList 4 (unclosed.inContext "a - (\nb").toList ∧
      ShowsPlace "a\n- ~".toList 2 (missing.inContext "a\n- ~").toList := by
  intro content e unclosed missing
  have hcheck : bracketing.vocabulary.check = .ok () := by with_unfolding_all rfl
  have hparse : bracketing.parse "a - (\nb" = .error unclosed := by with_unfolding_all rfl
  have hparsed : bracketing.parse "a\n- ~" = .ok e := by with_unfolding_all rfl
  have hevaluate : e.evaluateWith id = .error missing := by with_unfolding_all rfl
  obtain ⟨i, hi, _, hshown⟩ := (errors_show_place hcheck (by decide)).1 unclosed hparse
  obtain ⟨j, hj, _, hshownAfter⟩ := (errors_show_place hcheck (by decide)).2 e id missing hparsed hevaluate
  cases hi
  cases hj
  exact ⟨hcheck, hparse, hparsed, hevaluate, hshown, hshownAfter⟩

end Parser

end Bracketed
