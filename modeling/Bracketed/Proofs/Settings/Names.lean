import Bracketed.Settings.KeyPath

namespace Bracketed

/-- Whether a name consists of small letters, digits, underscores and hyphens, so that it means the same however it is
read. -/
def isPlainName (name : String) : Bool :=
  !name.toList.isEmpty && name.toList.all fun c => c.isLower || c.isDigit || c == '_' || c == '-'

section

variable {c : Char} (hc : (c.isLower || c.isDigit || c == '_' || c == '-') = true)
include hc

theorem plain_cases :
    (97 ≤ c.toNat ∧ c.toNat ≤ 122) ∨ (48 ≤ c.toNat ∧ c.toNat ≤ 57) ∨ c = '_' ∨ c = '-' := by
  rw [Bool.or_eq_true, Bool.or_eq_true, Bool.or_eq_true, beq_iff_eq, beq_iff_eq] at hc
  rcases hc with ((hlower | hdigit) | rfl) | rfl
  · obtain ⟨h₁, h₂⟩ := Bool.and_eq_true_iff.mp hlower
    exact Or.inl ⟨of_decide_eq_true h₁, of_decide_eq_true h₂⟩
  · obtain ⟨h₁, h₂⟩ := Bool.and_eq_true_iff.mp hdigit
    exact Or.inr (Or.inl ⟨of_decide_eq_true h₁, of_decide_eq_true h₂⟩)
  · exact Or.inr (Or.inr (Or.inl rfl))
  · exact Or.inr (Or.inr (Or.inr rfl))

theorem toNat_of_plain : c.toNat < 128 ∧ ¬ (65 ≤ c.toNat ∧ c.toNat ≤ 90) := by
  rcases plain_cases hc with hlower | hdigit | rfl | rfl
  · omega
  · omega
  · decide
  · decide

theorem isNameChar_of_plain : KeyPath.isNameChar c = true := by
  have hle (d : Char) : d ≤ c ↔ d.toNat ≤ c.toNat := Iff.rfl
  have hge (d : Char) : c ≤ d ↔ c.toNat ≤ d.toNat := Iff.rfl
  rcases plain_cases hc with ⟨h₁, h₂⟩ | ⟨h₁, h₂⟩ | rfl | rfl
  · simp [KeyPath.isNameChar, hle, hge, h₁, h₂]
  · simp [KeyPath.isNameChar, hle, hge, h₁, h₂]
  · decide
  · decide

theorem toLower_of_plain : c.toLower = c := by
  obtain ⟨_, hupper⟩ := toNat_of_plain hc
  exact dif_neg fun h => hupper h

end

namespace Text

/-- No run of capitals begins among the first code points but that of the letters from A to Z. -/
theorem caseRuns_beyond_ascii : ∀ run ∈ caseRuns, (run.first = 65 ∧ run.last = 90) ∨ 128 ≤ run.first := by
  decide +kernel

theorem lowerChar_of_ascii {c : Char} (hascii : c.toNat < 128) (hupper : ¬ (65 ≤ c.toNat ∧ c.toNat ≤ 90)) :
    lowerChar c = [c] := by
  have hdot : c ≠ '\u0130' := by
    rintro rfl
    exact absurd hascii (by decide)
  have hnone : caseRuns.find? (fun run => run.contains c.toNat) = none := by
    refine List.find?_eq_none.mpr fun run hrun => ?_
    rw [CaseRun.contains, Bool.and_eq_true, Bool.and_eq_true, decide_eq_true_eq, decide_eq_true_eq]
    rintro ⟨⟨hfirst, hlast⟩, _⟩
    rcases caseRuns_beyond_ascii run hrun with ⟨h₁, h₂⟩ | h <;> omega
  rw [lowerChar, if_neg hdot, hnone]

theorem lowerAfter_of_ascii {cs : List Char}
    (h : ∀ c ∈ cs, c.toNat < 128 ∧ ¬ (65 ≤ c.toNat ∧ c.toNat ≤ 90)) (before : List Char) :
    lowerAfter before cs = cs := by
  induction cs generalizing before with
  | nil => rfl
  | cons c cs ih =>
    obtain ⟨⟨hascii, hupper⟩, hcs⟩ := List.forall_mem_cons.mp h
    have hsigma : c ≠ 'Σ' := by
      rintro rfl
      exact absurd hascii (by decide)
    rw [lowerAfter, if_neg hsigma, lowerChar_of_ascii hascii hupper, ih hcs]
    rfl

end Text

namespace isPlainName

variable {name : String} (h : isPlainName name = true)
include h

theorem ne_nil : name.toList ≠ [] := by
  rw [isPlainName, Bool.and_eq_true, Bool.not_eq_true', List.isEmpty_eq_false_iff] at h
  exact h.1

theorem plain : ∀ c ∈ name.toList, (c.isLower || c.isDigit || c == '_' || c == '-') = true := by
  rw [isPlainName, Bool.and_eq_true, List.all_eq_true] at h
  exact h.2

theorem lowercase_eq : Text.lowercase name = name := by
  rw [Text.lowercase, Text.lowerAfter_of_ascii fun c hc => toNat_of_plain (plain h c hc), String.ofList_toList]

theorem foldedName_eq : KeyPath.foldedName name.toList = name := by
  have hmap : name.toList.map Char.toLower = name.toList.map id :=
    List.map_congr_left fun c hc => toLower_of_plain (plain h c hc)
  rw [KeyPath.foldedName, hmap, List.map_id, String.ofList_toList]

end isPlainName

namespace KeyPath

theorem partsOf?_of_isNameChar {c : Char} {cs : List Char} (h : ∀ x ∈ c :: cs, isNameChar x = true) :
    partsOf? (c :: cs) = some (.name (c :: cs), []) := by
  induction cs generalizing c with
  | nil => simp [partsOf?, h c List.mem_cons_self]
  | cons d cs ih =>
    obtain ⟨hc, hcs⟩ := List.forall_mem_cons.mp h
    rw [partsOf?, ih hcs]
    simp [hc]

/-- A plain name is the path of a setting at the top. -/
theorem read?_of_isPlainName {name : String} (h : isPlainName name = true) :
    read? name = some { first := name, rest := [] } := by
  obtain ⟨c, cs, hname⟩ := List.exists_cons_of_ne_nil (isPlainName.ne_nil h)
  have hparts : partsOf? name.toList = some (.name name.toList, []) := by
    rw [hname]
    refine partsOf?_of_isNameChar fun x hx => isNameChar_of_plain (isPlainName.plain h x ?_)
    rwa [hname]
  rw [read?, hparts]
  simp [isPlainName.foldedName_eq h]

end KeyPath

end Bracketed
