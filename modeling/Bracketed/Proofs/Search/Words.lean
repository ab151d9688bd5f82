import Bracketed.Proofs.Evaluation.Polarity
import Bracketed.Proofs.Scan.Parse
import Bracketed.Proofs.Text.Lowercase
import Bracketed.Search.Query

namespace Bracketed

/-- The only unary operator of queries is the negation. -/
theorem SearchSettings.polarized_parser (s : SearchSettings) : Operator.Polarized s.parser.operators where
  unary := by
    intro token f hf
    simp only [parser, List.mem_cons, Operator.mk.injEq, reduceCtorEq, and_false, false_or, Combine.unary.injEq,
      List.not_mem_nil, or_false] at hf
    obtain ⟨_, rfl⟩ := hf
    intro a b
    revert a b
    decide
  binary := by
    intro token f hf
    simp only [parser, List.mem_cons, Operator.mk.injEq, reduceCtorEq, and_false, or_false, Combine.binary.injEq,
      List.not_mem_nil] at hf
    obtain ⟨_, rfl⟩ | ⟨_, rfl⟩ := hf <;> decide

namespace Query

variable {q : Query} {s : SearchSettings} {query : String}

theorem compile_eq_ok_iff : compile query s = .ok q ↔
    s.parser.parse query = .ok q.expression ∧ q.caseSensitive = s.caseSensitive := by
  rw [compile]
  cases hparse : s.parser.parse query with
  | error err => simp [Bind.bind, Except.bind]
  | ok e =>
    simp only [Bind.bind, Except.bind, Pure.pure, Except.pure, Except.ok.injEq]
    constructor
    · rintro rfl
      exact ⟨rfl, rfl⟩
    · rintro ⟨rfl, hcase⟩
      cases q
      cases hcase
      rfl

theorem polarized_of_compile (h : compile query s = .ok q) : Operator.Polarized q.expression.operators := by
  obtain ⟨_, _, _, hoperators, _⟩ := Parser.parse_spec (compile_eq_ok_iff.mp h).1
  rw [hoperators]
  exact s.polarized_parser

theorem fits_eq_ok_iff {target : String} {fits : Bool} : q.fits target = .ok fits ↔
    ∃ r, q.expression.evaluateWith (wordOccurs q.caseSensitive target) = .ok r ∧ r.value = fits := by
  rw [Query.fits]
  cases q.expression.evaluateWith (wordOccurs q.caseSensitive target) <;> simp [Except.map]

theorem wordOccurs_true_iff {target word : String} :
    wordOccurs true target word = true ↔ word.toList <:+: target.toList := by
  rw [wordOccurs, if_pos rfl, Text.occursIn_iff_isInfix]

theorem wordOccurs_false_iff {target word : String} : wordOccurs false target word = true ↔
    (Text.lowercase word).toList <:+: (Text.lowercase target).toList := by
  rw [wordOccurs, if_neg (by simp), Text.occursIn_iff_isInfix]

/-- A query all of whose words stand under an even number of negations fits whatever it takes for a target in which the
same words and perhaps more of them occur. -/
theorem fits_of_wordOccurs (hpolarized : Operator.Polarized q.expression.operators)
    (heven : ∀ p ∈ q.expression.underUnaries, Even p.2) {target target' : String} {caseSensitive : Bool}
    (hwords : ∀ v, .value v ∈ q.expression.nodes →
      wordOccurs q.caseSensitive target v.text = true → wordOccurs caseSensitive target' v.text = true)
    (hfits : q.fits target = .ok true) : ({ q with caseSensitive } : Query).fits target' = .ok true := by
  obtain ⟨r, hr, hvalue⟩ := fits_eq_ok_iff.mp hfits
  refine fits_eq_ok_iff.mpr (q.expression.evaluateWith_of_follows hpolarized ?_ hr hvalue)
  intro p hp
  obtain ⟨v, hv, htext⟩ := Forest.exists_value_of_mem_underUnaries hp Expression.rootId 1
  rw [Follows.iff_le_of_even (heven p hp), ← htext, Bool.le_iff_imp]
  exact hwords v (List.mem_cons_of_mem _ hv)

/-- A query that compares words with case and has an even number of negations over each of them goes on fitting when
words come to occur in the target, in particular when the target grows. -/
theorem fits_mono (hcase : s.caseSensitive = true) (h : compile query s = .ok q)
    (heven : ∀ p ∈ q.expression.underUnaries, Even p.2) :
    (∀ target target' : String, (∀ v, .value v ∈ q.expression.nodes →
      v.text.toList <:+: target.toList → v.text.toList <:+: target'.toList) →
      q.fits target = .ok true → q.fits target' = .ok true) ∧
    ∀ target target' : String, target.toList <:+: target'.toList →
      q.fits target = .ok true → q.fits target' = .ok true := by
  have hq : q.caseSensitive = true := (compile_eq_ok_iff.mp h).2.trans hcase
  have hmono (target target' : String) (hwords : ∀ v, .value v ∈ q.expression.nodes →
      v.text.toList <:+: target.toList → v.text.toList <:+: target'.toList) (hfits : q.fits target = .ok true) :
      q.fits target' = .ok true := by
    refine fits_of_wordOccurs (polarized_of_compile h) heven ?_ hfits
    intro v hv
    rw [hq, wordOccurs_true_iff, wordOccurs_true_iff]
    exact hwords v hv
  refine ⟨hmono, ?_⟩
  intro target target' hgrows
  exact hmono target target' fun _ _ hoccurs => hoccurs.trans hgrows

/-- What the default settings read `a && !(!b || !!!c)` as. -/
def negations : Query where
  expression :=
    { source := "a && !(!b || !!!c)"
      padding := 1
      content := .value ⟨"a", 2, ⟨0, 1⟩⟩ <| .operator ⟨0, ⟨2, 4⟩⟩ <| .operator ⟨2, ⟨5, 6⟩⟩ <|
        .group ⟨⟨"(", ")"⟩, ⟨6, 18⟩, 1⟩ (.operator ⟨2, ⟨7, 8⟩⟩ <| .value ⟨"b", 2, ⟨8, 9⟩⟩ <| .operator ⟨1, ⟨10, 12⟩⟩ <|
          .operator ⟨2, ⟨13, 14⟩⟩ <| .operator ⟨2, ⟨14, 15⟩⟩ <| .operator ⟨2, ⟨15, 16⟩⟩ <|
          .value ⟨"c", 1, ⟨16, 17⟩⟩ .nil) .nil
      operators := SearchSettings.default.parser.operators
      leaf := fun _ => false
      associativity := .left }
  caseSensitive := true

theorem compile_negations : compile "a && !(!b || !!!c)" .default = .ok negations := by
  with_unfolding_all rfl

/-- The words may also be found in another order. -/
theorem fits_mono_negations :
    compile "a && !(!b || !!!c)" .default = .ok negations ∧
      negations.expression.underUnaries = [("a", 0), ("b", 2), ("c", 4)] ∧
      negations.fits "abc" = .ok true ∧ negations.fits "cab" = .ok true ∧ negations.fits "abc is" = .ok true := by
  have hunder : negations.expression.underUnaries = [("a", 0), ("b", 2), ("c", 4)] := by decide
  have heven : ∀ p ∈ negations.expression.underUnaries, Even p.2 := by
    rw [hunder]
    decide
  have hvalues : negations.expression.nodes.filterMap Node.value? =
      [⟨"a", 2, ⟨0, 1⟩⟩, ⟨"b", 2, ⟨8, 9⟩⟩, ⟨"c", 1, ⟨16, 17⟩⟩] := by decide
  have hoccur (target : String) (h : ∀ v ∈ negations.expression.nodes.filterMap Node.value?,
      v.text.toList <:+: target.toList) : ∀ v, .value v ∈ negations.expression.nodes →
      v.text.toList <:+: "abc".toList → v.text.toList <:+: target.toList :=
    fun v hv _ => h v (List.mem_filterMap.mpr ⟨.value v, hv, rfl⟩)
  have hfits : negations.fits "abc" = .ok true := by with_unfolding_all rfl
  obtain ⟨hwords, hgrows⟩ := fits_mono (s := .default) rfl compile_negations heven
  refine ⟨compile_negations, hunder, hfits, ?_, ?_⟩
  · refine hwords "abc" "cab" (hoccur "cab" ?_) hfits
    rw [hvalues]
    decide
  · refine hgrows "abc" "abc is" ?_ hfits
    decide

/-- A query of one word fits the targets in which it occurs. -/
theorem fits_of_content_eq_value {v : Value} (hcontent : q.expression.content = .value v .nil) (target : String) :
    q.fits target = .ok (wordOccurs q.caseSensitive target v.text) := by
  have hreads : q.expression.content.Reads q.expression.operators q.expression.associativity 1 (.leaf 1 v) [] := by
    rw [hcontent]
    exact .value .nil
  refine fits_eq_ok_iff.mpr ⟨_, Expression.evaluateWith_of_reads hreads _, ?_⟩
  rw [Term.nest_nil, Term.value]

/-- The same query compares its words without case. -/
theorem compile_ignoring_case (h : compile query { s with caseSensitive := true } = .ok q) :
    compile query { s with caseSensitive := false } = .ok { q with caseSensitive := false } :=
  compile_eq_ok_iff.mpr ⟨(compile_eq_ok_iff.mp h).1, rfl⟩

/-- A query without negations that compares words with case fits no target that it does not also fit when it ignores
case, provided that its words settle the form of their capital sigmas by themselves. For a query of one word this is
the exact condition: a word is looked for in the lower-case form it has by itself, and in the target it may have
another one. -/
theorem fits_ignoring_case (h : compile query { s with caseSensitive := true } = .ok q)
    (hnone : ∀ o, .operator o ∈ q.expression.nodes → ¬ o.IsOfKind q.expression.operators .unary) :
    ∃ q', compile query { s with caseSensitive := false } = .ok q' ∧
      ((∀ v, .value v ∈ q.expression.nodes → Text.settlesSigmas v.text = true) →
        ∀ target, q.fits target = .ok true → q'.fits target = .ok true) ∧
      ∀ v, q.expression.content = .value v .nil →
        ((∀ target, q.fits target = .ok true → q'.fits target = .ok true) ↔ Text.settlesSigmas v.text = true) := by
  have hcase : q.caseSensitive = true := (compile_eq_ok_iff.mp h).2
  refine ⟨_, compile_ignoring_case h, ?_, ?_⟩
  · intro hsettled target
    refine fits_of_wordOccurs (polarized_of_compile h) ?_ ?_
    · intro p hp
      rw [Forest.snd_eq_zero_of_mem_underUnaries (fun o ho => hnone o (List.mem_cons_of_mem _ ho)) hp]
      exact Even.zero
    · intro v hv
      rw [hcase, wordOccurs_true_iff, wordOccurs_false_iff]
      exact Text.settlesSigmas_iff.mp (hsettled v hv) target
  · intro v hcontent
    rw [Text.settlesSigmas_iff]
    refine forall_congr' fun target => ?_
    have hignoring := fits_of_content_eq_value (q := { q with caseSensitive := false }) hcontent target
    rw [fits_of_content_eq_value hcontent, hignoring, hcase, Except.ok.injEq, Except.ok.injEq, wordOccurs_true_iff,
      wordOccurs_false_iff]

/-- What the default settings read `Marley && (ΟΔΟΣ x || Ziggy)` as. -/
def streets : Query where
  expression :=
    { source := "Marley && (ΟΔΟΣ x || Ziggy)"
      padding := 1
      content := .value ⟨"Marley", 7, ⟨0, 6⟩⟩ <| .operator ⟨0, ⟨7, 9⟩⟩ <|
        .group ⟨⟨"(", ")"⟩, ⟨10, 27⟩, 0⟩ (.value ⟨"ΟΔΟΣ x", 7, ⟨11, 17⟩⟩ <| .operator ⟨1, ⟨18, 20⟩⟩ <|
          .value ⟨"Ziggy", 6, ⟨21, 26⟩⟩ .nil) .nil
      operators := SearchSettings.default.parser.operators
      leaf := fun _ => false
      associativity := .left }
  caseSensitive := true

/-- The blank behind the sigma of `ΟΔΟΣ x` belongs to the word, so that what comes behind the word does not matter. -/
theorem fits_ignoring_case_streets :
    compile "Marley && (ΟΔΟΣ x || Ziggy)" { SearchSettings.default with caseSensitive := true } = .ok streets ∧
      streets.fits "Marley ΟΔΟΣ xy" = .ok true ∧
      ∃ q', compile "Marley && (ΟΔΟΣ x || Ziggy)" { SearchSettings.default with caseSensitive := false } = .ok q' ∧
        q'.fits "Marley ΟΔΟΣ xy" = .ok true := by
  have hcompile : compile "Marley && (ΟΔΟΣ x || Ziggy)" { SearchSettings.default with caseSensitive := true } =
      .ok streets := by with_unfolding_all rfl
  have hfits : streets.fits "Marley ΟΔΟΣ xy" = .ok true := by with_unfolding_all rfl
  have hnone : ∀ o ∈ streets.expression.nodes.filterMap Node.operator?,
      ¬ o.IsOfKind streets.expression.operators .unary := by decide
  have hsettled : ∀ v ∈ streets.expression.nodes.filterMap Node.value?, Text.settlesSigmas v.text = true := by
    decide +kernel
  obtain ⟨q', hq', hkeeps, _⟩ := fits_ignoring_case hcompile fun o ho =>
    hnone o (List.mem_filterMap.mpr ⟨.operator o, ho, rfl⟩)
  refine ⟨hcompile, hfits, q', hq', hkeeps ?_ "Marley ΟΔΟΣ xy" hfits⟩
  intro v hv
  exact hsettled v (List.mem_filterMap.mpr ⟨.value v, hv, rfl⟩)

/-- A word that ends with a capital sigma is lost in a longer word, where the sigma has the other lower-case form. -/
theorem not_fits_ignoring_case_word_end :
    ∃ q q', compile "ΟΔΟΣ" { SearchSettings.default with caseSensitive := true } = .ok q ∧
      compile "ΟΔΟΣ" { SearchSettings.default with caseSensitive := false } = .ok q' ∧
      (∀ o, .operator o ∈ q.expression.nodes → ¬ o.IsOfKind q.expression.operators .unary) ∧
      q.fits "ΟΔΟΣΗΜΟ" = .ok true ∧ q'.fits "ΟΔΟΣΗΜΟ" = .ok false := by
  let q : Query := ⟨⟨"ΟΔΟΣ", 0, .value ⟨"ΟΔΟΣ", 4, ⟨0, 4⟩⟩ .nil, SearchSettings.default.parser.operators,
    fun _ => false, .left⟩, true⟩
  have hcompile : compile "ΟΔΟΣ" { SearchSettings.default with caseSensitive := true } = .ok q := by with_unfolding_all rfl
  refine ⟨q, _, hcompile, compile_ignoring_case hcompile, ?_, ?_, ?_⟩
  · have hnone : q.expression.nodes.filterMap Node.operator? = [] := by decide
    intro o ho
    have hmem : o ∈ q.expression.nodes.filterMap Node.operator? := List.mem_filterMap.mpr ⟨.operator o, ho, rfl⟩
    rw [hnone] at hmem
    cases hmem
  · with_unfolding_all rfl
  · with_unfolding_all rfl

end Query

end Bracketed
