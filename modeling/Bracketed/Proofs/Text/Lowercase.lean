import Bracketed.Text.Lowercase
import Mathlib.Data.List.Infix

namespace Bracketed.Text

/-- Whether a text has a character that is not passed over where a word is looked for. -/
def holdsLetter (cs : List Char) : Bool :=
  cs.any fun c => !caseIgnorable.contains c

/-- Whether nothing that is put around two texts, the first of which is given from right to left, can change whether a
capital sigma between them ends a word. If neither side leaves open what it begins with, this is so; and no sigma ends
a word where a letter with a case comes behind it or something else than one before it. -/
def settlesSigma (before after : List Char) : Bool :=
  beginsCased after || holdsLetter before && (holdsLetter after || !beginsCased before)

/-- Whether each capital sigma in a text that follows the text `before`, given from right to left, is settled. -/
def settlesAfter (before : List Char) : List Char → Bool
  | [] => true
  | c :: cs => (c != 'Σ' || settlesSigma before cs) && settlesAfter (c :: before) cs

/-- Whether the lower-case form of a text is the same wherever the text stands. -/
def settlesSigmas (s : String) : Bool :=
  settlesAfter [] s.toList

/-- The lower-case form of a text between the text `before`, given from right to left, and the text `after`. -/
def lowerBetween (before after : List Char) : List Char → List Char
  | [] => []
  | c :: cs =>
    (if c = 'Σ' then [if endsWord before (cs ++ after) then 'ς' else 'σ'] else lowerChar c) ++
      lowerBetween (c :: before) after cs

theorem lowerAfter_append (before cs after : List Char) :
    lowerAfter before (cs ++ after) = lowerBetween before after cs ++ lowerAfter (cs.reverse ++ before) after := by
  induction cs generalizing before with
  | nil => rfl
  | cons c cs ih =>
    rw [List.cons_append, lowerAfter, lowerBetween, ih]
    simp

theorem lowerBetween_nil (before cs : List Char) : lowerBetween before [] cs = lowerAfter before cs := by
  simpa [lowerAfter] using (lowerAfter_append before cs []).symm

theorem toList_lowercase (s : String) : (lowercase s).toList = lowerAfter [] s.toList :=
  String.toList_ofList

section

variable {before after cs x y : List Char}

theorem beginsCased_of_not_holdsLetter (h : holdsLetter cs = false) (x : List Char) :
    beginsCased (cs ++ x) = beginsCased x := by
  have hpassed : ∀ c ∈ cs, caseIgnorable.contains c = true := by simpa [holdsLetter] using h
  rw [beginsCased, List.dropWhile_append_of_pos hpassed, ← beginsCased]

theorem beginsCased_append (h : holdsLetter cs = true) (x : List Char) : beginsCased (cs ++ x) = beginsCased cs := by
  induction cs with
  | nil => cases h
  | cons c cs ih =>
    by_cases hc : caseIgnorable.contains c = true
    · have hcs : holdsLetter cs = true := by simpa [holdsLetter, hc] using h
      have hskip (rest : List Char) : beginsCased (c :: rest) = beginsCased rest := by simp [beginsCased, hc]
      rw [List.cons_append, hskip, hskip, ih hcs]
    · simp [beginsCased, hc]

theorem holdsLetter_of_beginsCased (h : beginsCased cs = true) : holdsLetter cs = true := by
  by_contra hnone
  have hnil : beginsCased (cs ++ []) = beginsCased [] :=
    beginsCased_of_not_holdsLetter (Bool.eq_false_iff.mpr hnone) []
  rw [List.append_nil, h] at hnil
  cases hnil

theorem endsWord_of_settlesSigma (h : settlesSigma before after = true) (x y : List Char) :
    endsWord (before ++ x) (after ++ y) = endsWord before after := by
  rw [endsWord, endsWord]
  rw [settlesSigma, Bool.or_eq_true, Bool.and_eq_true, Bool.or_eq_true] at h
  rcases h with hcased | ⟨hbefore, hafter | huncased⟩
  · rw [beginsCased_append (holdsLetter_of_beginsCased hcased), hcased]
    simp
  · rw [beginsCased_append hbefore, beginsCased_append hafter]
  · rw [beginsCased_append hbefore, Bool.not_eq_true' _ |>.mp huncased]
    rfl

/-- What is settled has its lower-case form wherever it stands. -/
theorem lowerBetween_of_settlesAfter (h : settlesAfter before cs = true) (x y : List Char) :
    lowerBetween (before ++ x) y cs = lowerAfter before cs := by
  induction cs generalizing before with
  | nil => rfl
  | cons c cs ih =>
    rw [settlesAfter, Bool.and_eq_true] at h
    obtain ⟨hc, hcs⟩ := h
    have hrest := ih hcs
    rw [List.cons_append] at hrest
    rw [lowerBetween, lowerAfter, hrest]
    split
    · rename_i hsigma
      have hsettled : settlesSigma before cs = true := by simpa [hsigma] using hc
      rw [endsWord_of_settlesSigma hsettled]
    · rfl

/-- Beyond a letter nothing of what comes before is looked at. -/
theorem lowerAfter_append_left (h : holdsLetter before = true) (x cs : List Char) :
    lowerAfter (before ++ x) cs = lowerAfter before cs := by
  induction cs generalizing before with
  | nil => rfl
  | cons c cs ih =>
    have hletter : holdsLetter (c :: before) = true := by
      rw [holdsLetter, List.any_cons, Bool.or_eq_true]
      exact Or.inr h
    have hrest : lowerAfter (c :: (before ++ x)) cs = lowerAfter (c :: before) cs := ih hletter
    rw [lowerAfter, lowerAfter, hrest, endsWord, endsWord, beginsCased_append h]

/-- Beyond a letter nothing of what comes behind is looked at. -/
theorem lowerBetween_append_right (h : holdsLetter after = true) (before y cs : List Char) :
    lowerBetween before (after ++ y) cs = lowerBetween before after cs := by
  induction cs generalizing before with
  | nil => rfl
  | cons c cs ih =>
    have hletter : holdsLetter (cs ++ after) = true := by
      rw [holdsLetter, List.any_append, Bool.or_eq_true]
      exact Or.inr h
    rw [lowerBetween, lowerBetween, ih, endsWord, endsWord, ← List.append_assoc, beginsCased_append hletter]

theorem caseIgnorable_sigma : caseIgnorable.contains 'Σ' = false := by decide +kernel

/-- Only a capital sigma, which is a letter, is looked at together with what stands around it. -/
theorem lowerBetween_of_not_holdsLetter (h : holdsLetter cs = false) (before after x y : List Char) :
    lowerBetween before after cs = lowerBetween x y cs := by
  induction cs generalizing before x with
  | nil => rfl
  | cons c cs ih =>
    rw [holdsLetter, List.any_cons, Bool.or_eq_false_iff] at h
    obtain ⟨hc, hcs⟩ := h
    have hsigma : c ≠ 'Σ' := by
      rintro rfl
      rw [caseIgnorable_sigma] at hc
      cases hc
    rw [lowerBetween, lowerBetween, if_neg hsigma, if_neg hsigma, ih hcs]

theorem exists_of_settlesAfter_eq_false (h : settlesAfter before cs = false) :
    ∃ pre post, cs = pre ++ 'Σ' :: post ∧ settlesSigma (pre.reverse ++ before) post = false := by
  induction cs generalizing before with
  | nil => cases h
  | cons c cs ih =>
    rw [settlesAfter, Bool.and_eq_false_iff, Bool.or_eq_false_iff] at h
    rcases h with ⟨hc, hsigma⟩ | hcs
    · refine ⟨[], cs, ?_, hsigma⟩
      rw [bne_eq_false_iff_eq.mp hc]
      rfl
    · obtain ⟨pre, post, rfl, hsigma⟩ := ih hcs
      refine ⟨c :: pre, post, rfl, ?_⟩
      simpa using hsigma

end

/-- A capital sigma that may or may not end a word. -/
theorem lowerAfter_sigma (before pre post : List Char) :
    lowerAfter before (pre ++ 'Σ' :: post) = lowerBetween before ('Σ' :: post) pre ++
      (if endsWord (pre.reverse ++ before) post then 'ς' else 'σ') ::
        lowerAfter ('Σ' :: (pre.reverse ++ before)) post := by
  rw [lowerAfter_append, lowerAfter]
  rfl

theorem lowerAfter_letter (before : List Char) (rest : List Char) :
    lowerAfter before ('a' :: rest) = 'a' :: lowerAfter ('a' :: before) rest := rfl

theorem holdsLetter_sigma (cs : List Char) : holdsLetter ('Σ' :: cs) = true := by
  rw [holdsLetter, List.any_cons, caseIgnorable_sigma]
  rfl

/-- A letter put directly behind a sigma that ends a word takes its place as the end. -/
theorem count_lowerAfter_append_letter {pre post : List Char} (hbefore : beginsCased pre.reverse = true)
    (hafter : holdsLetter post = false) :
    (lowerAfter [] (pre ++ 'Σ' :: post ++ ['a'])).count 'ς' < (lowerAfter [] (pre ++ 'Σ' :: post)).count 'ς' := by
  have hends : endsWord pre.reverse post = true := by
    have huncased := beginsCased_of_not_holdsLetter hafter []
    rw [List.append_nil] at huncased
    rw [endsWord, hbefore, huncased]
    rfl
  have hjoins : endsWord pre.reverse (post ++ ['a']) = false := by
    rw [endsWord, hbefore, beginsCased_of_not_holdsLetter hafter]
    decide +kernel
  have hfront : lowerBetween [] ('Σ' :: (post ++ ['a'])) pre = lowerBetween [] ('Σ' :: post) pre :=
    lowerBetween_append_right (holdsLetter_sigma post) [] ['a'] pre
  have hback : lowerAfter ('Σ' :: pre.reverse) (post ++ ['a']) = lowerAfter ('Σ' :: pre.reverse) post ++ ['a'] := by
    rw [lowerAfter_append, lowerBetween_of_not_holdsLetter hafter _ ['a'] ('Σ' :: pre.reverse) [], lowerBetween_nil]
    rfl
  rw [List.append_assoc, List.cons_append, lowerAfter_sigma, lowerAfter_sigma, List.append_nil, hends, hjoins, hfront,
    hback]
  simp

/-- A letter put directly before a sigma makes it end a word if no letter with a case comes behind it. -/
theorem count_lowerAfter_letter {pre post : List Char} (hbefore : holdsLetter pre = false)
    (hafter : beginsCased post = false) :
    (lowerAfter [] ('a' :: (pre ++ 'Σ' :: post))).count 'σ' < (lowerAfter [] (pre ++ 'Σ' :: post)).count 'σ' := by
  have hreverse : holdsLetter pre.reverse = false := by rwa [holdsLetter, List.any_reverse]
  have hbegins : endsWord pre.reverse post = false := by
    have huncased := beginsCased_of_not_holdsLetter hreverse []
    rw [List.append_nil] at huncased
    rw [endsWord, huncased]
    rfl
  have hends : endsWord (pre.reverse ++ ['a']) post = true := by
    rw [endsWord, beginsCased_of_not_holdsLetter hreverse, hafter]
    decide +kernel
  have hfront := lowerBetween_of_not_holdsLetter hbefore ['a'] ('Σ' :: post) [] ('Σ' :: post)
  have hback : lowerAfter ('Σ' :: (pre.reverse ++ ['a'])) post = lowerAfter ('Σ' :: pre.reverse) post :=
    lowerAfter_append_left (holdsLetter_sigma _) ['a'] post
  rw [lowerAfter_letter, lowerAfter_sigma, lowerAfter_sigma, List.append_nil, hbegins, hends, hfront, hback]
  simp

/-- A text occurs in lower case wherever it occurs exactly if it settles the form of its capital sigmas by itself. -/
theorem settlesSigmas_iff {s : String} : settlesSigmas s = true ↔
    ∀ t : String, s.toList <:+: t.toList → (lowercase s).toList <:+: (lowercase t).toList := by
  simp only [toList_lowercase]
  constructor
  · rintro h t ⟨front, back, ht⟩
    have hsame := lowerBetween_of_settlesAfter h front.reverse back
    rw [List.nil_append] at hsame
    refine ⟨lowerBetween [] (s.toList ++ back) front, lowerAfter (s.toList.reverse ++ front.reverse) back, ?_⟩
    rw [← ht, List.append_assoc, List.append_assoc, lowerAfter_append, List.append_nil, lowerAfter_append, hsame]
  · intro h
    by_contra hopen
    -- A letter beside a sigma that is not settled gives it its other form, and then there are too few of the first.
    obtain ⟨pre, post, hs, hsigma⟩ := exists_of_settlesAfter_eq_false (Bool.eq_false_iff.mpr hopen)
    have hcount (t : List Char) (hpart : s.toList <:+: t) (c : Char) :
        (lowerAfter [] s.toList).count c ≤ (lowerAfter [] t).count c := by
      have hlower := h (String.ofList t) (by rwa [String.toList_ofList])
      rw [String.toList_ofList] at hlower
      exact hlower.sublist.count_le c
    rw [List.append_nil, settlesSigma, Bool.or_eq_false_iff, Bool.and_eq_false_iff, Bool.or_eq_false_iff] at hsigma
    rcases hsigma with ⟨hafter, hbefore | ⟨hnone, hcased⟩⟩
    · rw [holdsLetter, List.any_reverse] at hbefore
      have hfewer := count_lowerAfter_letter hbefore hafter
      rw [← hs] at hfewer
      exact absurd (hcount ('a' :: s.toList) (List.suffix_cons 'a' s.toList).isInfix 'σ') (Nat.not_le.mpr hfewer)
    · have hfewer := count_lowerAfter_append_letter (Bool.not_eq_false' _ |>.mp hcased) hnone
      rw [← hs] at hfewer
      exact absurd (hcount (s.toList ++ ['a']) (List.prefix_append _ _).isInfix 'ς') (Nat.not_le.mpr hfewer)

end Bracketed.Text
