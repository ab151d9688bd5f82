import Bracketed.Proofs.Settings.Names
import Bracketed.Settings.Reading
import Mathlib.Tactic.ByContra

namespace Bracketed.Setting

/-- Whether a value has no parts. -/
def IsScalar : Setting → Prop
  | array _ => False
  | table _ => False
  | _ => True

instance : DecidablePred IsScalar
  | array _ | table _ => .isFalse id
  | nil | bool _ | int _ | float _ | text _ => .isTrue trivial

theorem IsScalar.mergedInto_eq {value : Setting} (h : value.IsScalar) (existing : Option Setting) :
    mergedInto existing value = value := by
  cases value with
  | nil | bool | int | float | text => rfl
  | array | table => cases h

@[simp] theorem mergedInto_empty (existing : Setting) : mergedInto (some existing) (table []) = existing := by
  rw [mergedInto, mergeEntries]
  rfl

/-- The entries of a table after those of another one have been merged into it one by one. -/
def mergeTable (entries layer : List (String × Setting)) : List (String × Setting) :=
  layer.foldl (fun entries (name, value) => putEntry name (mergedInto (entries.lookup name) value) entries) entries

/-- The names in a table are plain, and there is at most one entry of each name. -/
structure IsPlain (entries : List (String × Setting)) : Prop where
  plain : ∀ p ∈ entries, isPlainName p.1 = true
  nodup : (entries.map Prod.fst).Nodup

theorem IsPlain.tail {p : String × Setting} {entries : List (String × Setting)} (h : IsPlain (p :: entries)) :
    isPlainName p.1 = true ∧ entries.lookup p.1 = none ∧ IsPlain entries := by
  obtain ⟨hp, hplain⟩ := List.forall_mem_cons.mp h.plain
  obtain ⟨hnew, hnodup⟩ := List.nodup_cons.mp h.nodup
  refine ⟨hp, List.lookup_eq_none_iff.mpr fun q hq => ?_, ⟨hplain, hnodup⟩⟩
  rw [bne_iff_ne]
  intro heq
  exact hnew (heq ▸ List.mem_map_of_mem hq)

section

variable {entries layer : List (String × Setting)}

/-- An entry of a layer is merged into the one of the same name, and all others stay. -/
theorem lookup_mergeTable (hlayer : IsPlain layer) (name : String) :
    (mergeTable entries layer).lookup name =
      match layer.lookup name with
      | none => entries.lookup name
      | some value => some (mergedInto (entries.lookup name) value) := by
  induction layer generalizing entries with
  | nil => rfl
  | cons p layer ih =>
    obtain ⟨key, value⟩ := p
    obtain ⟨_, hnew, hlayer⟩ := hlayer.tail
    rw [mergeTable, List.foldl_cons, ← mergeTable, ih hlayer, List.lookup_cons]
    by_cases hname : name = key
    · subst hname
      rw [hnew, beq_self_eq_true, lookup_putEntry_self]
    · rw [beq_eq_false_iff_ne.mpr hname, lookup_putEntry_of_ne hname]

/-- Only one entry is left after a merge if the layer had this entry and no other. -/
theorem exists_eq_singleton_of_mergeTable (hlayer : IsPlain layer) (hne : layer ≠ []) {name : String} {value : Setting}
    (h : mergeTable entries layer = [(name, value)]) : ∃ w, layer = [(name, w)] := by
  -- Every entry of the layer is still found after the merge, so that all of them have the one name.
  have hname : ∀ p ∈ layer, p.1 = name := by
    intro p hp
    by_contra hother
    have hnone : (mergeTable entries layer).lookup p.1 = none := by
      rw [h, List.lookup_cons, beq_eq_false_iff_ne.mpr hother]
      rfl
    rw [lookup_mergeTable hlayer] at hnone
    split at hnone
    · rename_i hlookup
      have hself := List.lookup_eq_none_iff.mp hlookup p hp
      simp at hself
    · cases hnone
  rcases layer with _ | ⟨⟨key, w⟩, _ | ⟨p, rest⟩⟩
  · exact absurd rfl hne
  · obtain rfl : key = name := hname (key, w) List.mem_cons_self
    exact ⟨w, rfl⟩
  · obtain rfl : key = name := hname (key, w) List.mem_cons_self
    have hp := hname p (List.mem_cons_of_mem _ List.mem_cons_self)
    have hnodup := hlayer.nodup
    simp [hp] at hnodup

theorem entries_mergeEntries (hlayer : IsPlain layer) (existing : Setting) :
    (mergeEntries existing layer).entries = mergeTable existing.entries layer := by
  induction layer generalizing existing with
  | nil =>
    rw [mergeEntries]
    rfl
  | cons p layer ih =>
    obtain ⟨hp, _, hlayer⟩ := hlayer.tail
    rw [mergeEntries, isPlainName.lowercase_eq hp, ih hlayer]
    rfl

theorem exists_mergeEntries_table (entries layer : List (String × Setting)) :
    ∃ merged, mergeEntries (table entries) layer = table merged := by
  induction layer generalizing entries with
  | nil =>
    rw [mergeEntries]
    exact ⟨entries, rfl⟩
  | cons p layer ih =>
    rw [mergeEntries]
    exact ih _

/-- What a table with entries is merged into is a table afterwards, whatever it has been. -/
theorem exists_mergeEntries_cons (existing : Setting) (p : String × Setting) (layer : List (String × Setting)) :
    ∃ merged, mergeEntries existing (p :: layer) = table merged := by
  rw [mergeEntries]
  exact exists_mergeEntries_table _ _

end

/-- The setting that a path of names leads to. -/
def at? (settings : List (String × Setting)) (path : KeyPath) : Option Setting :=
  path.rest.foldl (fun found step =>
    match step with
    | .name name => found.bind (·.entries.lookup name)
    | .index _ => none) (settings.lookup path.first)

/-- The setting that a layer gives at a path. A table is merged into what is there entry by entry, so one without
entries gives nothing. -/
def given? (layer : List (String × Setting)) (path : KeyPath) : Option Setting :=
  match at? layer path with
  | some (table []) => none
  | found => found

/-- A path to a setting at the top that is not the table with this name, or to an entry of this table. No two such
paths lead to settings one of which is inside the other. -/
inductive IsFieldPath (tableName : String) : KeyPath → Prop where
  | top {name : String} (h : name ≠ tableName) : IsFieldPath tableName ⟨name, []⟩
  | entry (name : String) : IsFieldPath tableName ⟨tableName, [.name name]⟩

/-- A layer with plain names at the top and in the tables there. What it has under the table's name is a table. -/
structure IsPlainLayer (tableName : String) (layer : List (String × Setting)) : Prop where
  names : IsPlain layer
  inner : ∀ p ∈ layer, IsPlain p.2.entries
  table : ∀ value, layer.lookup tableName = some value → ∃ entries, value = .table entries

section

variable {tableName : String} {path : KeyPath} {settings layer : List (String × Setting)}

theorem mem_of_lookup {name : String} {value : Setting} (h : settings.lookup name = some value) :
    (name, value) ∈ settings := by
  obtain ⟨front, back, rfl, _⟩ := List.lookup_eq_some_iff.mp h
  exact List.mem_append_right _ List.mem_cons_self

/-- Merging reaches every field by itself. -/
theorem at?_mergeTable (hpath : IsFieldPath tableName path) (hlayer : IsPlainLayer tableName layer) :
    at? (mergeTable settings layer) path =
      match at? layer path with
      | none => at? settings path
      | some value => some (mergedInto (at? settings path) value) := by
  cases hpath with
  | top => exact lookup_mergeTable hlayer.names _
  | entry name =>
    change ((mergeTable settings layer).lookup tableName).bind (·.entries.lookup name) =
      match (layer.lookup tableName).bind (·.entries.lookup name) with
      | none => (settings.lookup tableName).bind (·.entries.lookup name)
      | some value => some (mergedInto ((settings.lookup tableName).bind (·.entries.lookup name)) value)
    rw [lookup_mergeTable hlayer.names]
    cases hfound : layer.lookup tableName with
    | none => rfl
    | some value =>
      obtain ⟨entries, rfl⟩ := hlayer.table value hfound
      have hentries : IsPlain entries := hlayer.inner _ (mem_of_lookup hfound)
      rw [Option.bind_some, Option.bind_some, mergedInto, entries_mergeEntries hentries, lookup_mergeTable hentries]
      cases settings.lookup tableName <;> rfl

theorem at?_mergeTable_of_given? (hpath : IsFieldPath tableName path) (hlayer : IsPlainLayer tableName layer)
    {existing : Setting} (hexisting : at? settings path = some existing) :
    at? (mergeTable settings layer) path =
      some ((given? layer path).elim existing (mergedInto (some existing))) := by
  rw [at?_mergeTable hpath hlayer, hexisting, given?]
  split
  · rename_i hnone
    rw [hnone]
    rfl
  · rename_i value hvalue
    rw [hvalue]
    split
    · rename_i hempty
      cases hempty
      rw [mergedInto_empty, Option.elim_none]
    · rfl

theorem at?_of_given? {value : Setting} (h : given? layer path = some value) : at? layer path = some value := by
  rw [given?] at h
  split at h
  · cases h
  · exact h

theorem given?_ne_empty {value : Setting} (h : given? layer path = some value) : value ≠ .table [] := by
  rintro rfl
  rw [given?] at h
  split at h
  · cases h
  · rename_i hne
    exact hne h

/-- A setting without parts takes the place of the one at its path and leaves the other fields as they are. -/
theorem at?_set {path' : KeyPath} (hpath : IsFieldPath tableName path) (hpath' : IsFieldPath tableName path')
    {value : Setting} (hvalue : value.IsScalar) :
    at? (set settings path' value) path = if path = path' then some value else at? settings path := by
  cases hpath' with
  | @top name' h' =>
    cases hpath with
    | @top name h =>
      change (putEntry name' (mergedInto _ value) settings).lookup name = _
      rw [hvalue.mergedInto_eq]
      split
      · rename_i heq
        cases heq
        exact lookup_putEntry_self _ value settings
      · rename_i hne
        exact lookup_putEntry_of_ne (fun heq => hne (by rw [heq])) value settings
    | entry name =>
      change ((putEntry name' (mergedInto _ value) settings).lookup tableName).bind _ = _
      rw [lookup_putEntry_of_ne h'.symm, if_neg (by simp)]
      rfl
  | entry name' =>
    cases hpath with
    | @top name h =>
      change (putEntry tableName _ settings).lookup name = _
      rw [lookup_putEntry_of_ne h, if_neg (by simp)]
      rfl
    | entry name =>
      change ((putEntry tableName (Setting.table (putEntry name' (mergedInto _ value)
        ((settings.lookup tableName).getD nil).entries)) settings).lookup tableName).bind
          (·.entries.lookup name) = _
      rw [lookup_putEntry_self, hvalue.mergedInto_eq, Option.bind_some, entries]
      split
      · rename_i heq
        cases heq
        exact lookup_putEntry_self _ value _
      · rename_i hne
        rw [lookup_putEntry_of_ne fun heq => hne (by rw [heq])]
        change _ = (settings.lookup tableName).bind (·.entries.lookup name)
        cases settings.lookup tableName <;> rfl

end

end Bracketed.Setting
