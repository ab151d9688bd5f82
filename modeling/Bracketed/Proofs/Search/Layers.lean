import Bracketed.Proofs.Settings.Reading
import Bracketed.Proofs.Toml.Names
import Bracketed.Search.Loader

namespace Bracketed

open Setting

/-- The setting that a layer gives at a path. -/
def SettingsLayer.given? (source : SettingsLayer) (path : KeyPath) : Option Setting :=
  match source.read with
  | .ok entries => Setting.given? entries path
  | .error _ => none

/-- If the layer can be read, its names are plain, and what it has for the operators is a table. -/
def SettingsLayer.HasPlainNames (source : SettingsLayer) : Prop :=
  ∀ entries, source.read = .ok entries →
    (∀ p ∈ entries, isPlainName p.1 = true ∧ ∀ q ∈ p.2.entries, isPlainName q.1 = true) ∧
      ∀ value, entries.lookup "operators" = some value → ∃ inner, value = .table inner

instance (value : Setting) : Decidable (∃ inner, value = .table inner) :=
  match value with
  | .table inner => .isTrue ⟨inner, rfl⟩
  | .nil | .bool _ | .int _ | .float _ | .text _ | .array _ => .isFalse (by simp)

instance (source : SettingsLayer) : Decidable source.HasPlainNames :=
  match h : source.read with
  | .error _ => .isTrue (by simp [SettingsLayer.HasPlainNames, h])
  | .ok entries =>
    decidable_of_iff ((∀ p ∈ entries, isPlainName p.1 = true ∧ ∀ q ∈ p.2.entries, isPlainName q.1 = true) ∧
        ∀ value ∈ entries.lookup "operators", ∃ inner, value = .table inner)
      (by simp [SettingsLayer.HasPlainNames, h])

theorem SettingsLayer.read_unambiguous {source : SettingsLayer} {entries : List (String × Setting)}
    (h : source.read = .ok entries) : (Setting.table entries).Unambiguous := by
  rw [SettingsLayer.read.eq_def] at h
  split at h
  · split at h
    · cases h
    · rename_i hread
      cases h
      exact Toml.read?_unambiguous hread
  · split at h
    · cases h
    · rename_i hread
      cases h
      exact Toml.read?_unambiguous hread
  · split at h
    · cases h
    · cases h
      exact .table List.nodup_nil (List.forall_mem_nil _)

theorem SettingsLayer.HasPlainNames.isPlainLayer {source : SettingsLayer} (h : source.HasPlainNames)
    {entries : List (String × Setting)} (hread : source.read = .ok entries) : IsPlainLayer "operators" entries := by
  obtain ⟨hnames, htable⟩ := h entries hread
  obtain ⟨hnodup, hvalues⟩ : NamedOnce Setting.Unambiguous entries := by
    cases SettingsLayer.read_unambiguous hread with
    | table hnodup hvalues => exact ⟨hnodup, hvalues⟩
  exact {
    names := ⟨fun p hp => (hnames p hp).1, hnodup⟩
    inner := fun p hp => ⟨(hnames p hp).2, (hvalues p hp).nodup_entries⟩
    table := htable }

namespace SearchLoader

/-- The names of a plain layer are paths to the top. -/
theorem applyLayer_eq_mergeTable {layer : List (String × Setting)} (h : ∀ p ∈ layer, isPlainName p.1 = true)
    (settings : List (String × Setting)) : applyLayer settings layer = mergeTable settings layer := by
  induction layer generalizing settings with
  | nil => rfl
  | cons p layer ih =>
    obtain ⟨hp, hlayer⟩ := List.forall_mem_cons.mp h
    obtain ⟨name, value⟩ := p
    rw [applyLayer, List.foldl_cons]
    simp only [KeyPath.read?_of_isPlainName hp, Option.getD_some]
    rw [← applyLayer, ih hlayer]
    rfl

section

variable {α : Type} {read : Setting → Except SettingsError α} {path : KeyPath}
  {settings settings' : List (String × Setting)}

/-- One layer: the field is read as what the layer gives for it, if it gives anything. -/
theorem exists_at?_applyLayer (hpath : IsFieldPath "operators" path) {layer : List (String × Setting)}
    (hlayer : IsPlainLayer "operators" layer)
    (hcounts : ∀ value, Setting.given? layer path = some value → CountsAsGiven read value) {existing : Setting}
    (hexisting : at? settings path = some existing) :
    ∃ next, at? (applyLayer settings layer) path = some next ∧
      ∀ a, read next = .ok a → read ((Setting.given? layer path).getD existing) = .ok a := by
  rw [applyLayer_eq_mergeTable hlayer.names.plain, at?_mergeTable_of_given? hpath hlayer hexisting]
  refine ⟨_, rfl, fun a ha => ?_⟩
  cases hgiven : Setting.given? layer path with
  | none => rwa [hgiven] at ha
  | some value =>
    rw [hgiven] at ha
    exact hcounts value hgiven existing a ha

/-- All layers: the field is read as what the last layer gives for it that gives anything. -/
theorem exists_at?_foldlM_applyLayer (hpath : IsFieldPath "operators" path)
    (hcounts : ∀ layer, IsPlainLayer "operators" layer →
      ∀ value, Setting.given? layer path = some value → CountsAsGiven read value)
    {layers : List SettingsLayer} (hlayers : ∀ source ∈ layers, source.HasPlainNames) {existing : Setting}
    (hexisting : at? settings path = some existing)
    (h : layers.foldlM (fun settings source => do return applyLayer settings (← source.read)) settings =
      .ok settings') :
    ∃ next, at? settings' path = some next ∧
      ∀ a, read next = .ok a → read ((layers.reverse.findSome? (·.given? path)).getD existing) = .ok a := by
  induction layers generalizing settings existing with
  | nil =>
    cases h
    exact ⟨existing, hexisting, fun a ha => ha⟩
  | cons source layers ih =>
    obtain ⟨hsource, hlayers⟩ := List.forall_mem_cons.mp hlayers
    rw [List.foldlM_cons] at h
    obtain ⟨between, hbetween, h⟩ := SettingsError.bind_eq_ok_iff.mp h
    obtain ⟨layer, hread, happly⟩ := SettingsError.bind_eq_ok_iff.mp hbetween
    cases happly
    have hlayer := hsource.isPlainLayer hread
    obtain ⟨next, hnext, hreadNext⟩ := exists_at?_applyLayer hpath hlayer (hcounts layer hlayer) hexisting
    obtain ⟨last, hlast, hreadLast⟩ := ih hlayers hnext h
    refine ⟨last, hlast, fun a ha => ?_⟩
    have hgiven : source.given? path = Setting.given? layer path := by
      rw [SettingsLayer.given?, hread]
    have hrest := hreadLast a ha
    -- Either a layer further on gives a value, or what this one has left behind is what counts.
    rw [List.reverse_cons, List.findSome?_append, List.findSome?_singleton, hgiven]
    cases hfound : layers.reverse.findSome? (·.given? path) with
    | none =>
      rw [hfound] at hrest
      exact hreadNext a hrest
    | some value =>
      rw [hfound] at hrest
      exact hrest

end

end SearchLoader

end Bracketed
