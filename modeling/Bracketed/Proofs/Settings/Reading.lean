import Bracketed.Proofs.Settings.Merge

namespace Bracketed

theorem SettingsError.bind_eq_ok_iff {α β : Type} {x : Except SettingsError α} {next : α → Except SettingsError β}
    {b : β} : (x >>= next) = .ok b ↔ ∃ a, x = .ok a ∧ next a = .ok b := by
  cases x <;> simp [Bind.bind, Except.bind]

namespace Setting

variable {α : Type} {read : Setting → Except SettingsError α} {value : Setting}

/-- A part with a name is there if a table has an entry of the name that can be read. -/
theorem part?_named_eq_ok_some_iff {entries : List (String × Setting)} {place : Nat} {name : String} {a : α} :
    (Record.named entries).part? place name read = .ok (some a) ↔
      ∃ value, entries.lookup name = some value ∧ read value = .ok a := by
  rw [Record.part?]
  cases entries.lookup name with
  | none => simp
  | some value => cases hread : read value <;> simp [hread, Except.map, Except.mapError]

theorem demand_eq_ok_iff {name : String} {found : Option α} {a : α} : demand name found = .ok a ↔ found = some a := by
  cases found <;> simp [demand]

/-- What the value is read as does not depend on what it is merged into, if it can be read then. -/
def CountsAsGiven (read : Setting → Except SettingsError α) (value : Setting) : Prop :=
  ∀ existing a, read (mergedInto (some existing) value) = .ok a → read value = .ok a

/-- Only tables change when they are merged into something. -/
theorem countsAsGiven_of_not_table (hread : ∀ entries a, read (table entries) ≠ .ok a) (hne : value ≠ table []) :
    CountsAsGiven read value := by
  intro existing a h
  cases value with
  | nil | bool | int | float | text | array => exact h
  | table entries =>
    cases entries with
    | nil => exact absurd rfl hne
    | cons p layer =>
      obtain ⟨merged, hmerged⟩ := exists_mergeEntries_cons existing p layer
      rw [mergedInto, Option.getD_some, hmerged] at h
      exact absurd h (hread merged a)

theorem countsAsGiven_readBool (hne : value ≠ table []) : CountsAsGiven readBool value :=
  countsAsGiven_of_not_table (by simp [readBool]) hne

theorem countsAsGiven_readText (hne : value ≠ table []) : CountsAsGiven readText value :=
  countsAsGiven_of_not_table (by simp [readText]) hne

theorem countsAsGiven_readList (hne : value ≠ table []) : CountsAsGiven (readList read) value :=
  countsAsGiven_of_not_table (by simp [readList]) hne

/-- A table stands for a variant only if it has one entry. What has been merged into another table and still has only
one entry had the same one before. -/
theorem countsAsGiven_readVariant {typeName : String} {variants : List (String × α)} (hplain : IsPlain value.entries)
    (hne : value ≠ table []) : CountsAsGiven (readVariant typeName variants) value := by
  intro existing a h
  cases value with
  | nil | bool | int | float | text | array => exact h
  | table entries =>
    cases entries with
    | nil => exact absurd rfl hne
    | cons p layer =>
      have hentries := entries_mergeEntries hplain existing
      obtain ⟨merged, hmerged⟩ := exists_mergeEntries_cons existing p layer
      rw [mergedInto, Option.getD_some, hmerged] at h
      rw [entries, hmerged] at hentries
      rcases merged with _ | ⟨⟨name, w⟩, _ | ⟨q, merged⟩⟩
      · cases h
      · obtain ⟨v, hv⟩ := exists_eq_singleton_of_mergeTable hplain (List.cons_ne_nil p layer) hentries.symm
        rw [entries] at hv
        rw [hv]
        exact h
      · cases h

end Setting

end Bracketed
