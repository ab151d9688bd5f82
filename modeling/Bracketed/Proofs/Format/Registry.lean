import Bracketed.Format.Registry

namespace Bracketed

/-- The format that was the last one of its name to be registered, if the formats were registered in this
order. -/
def Formatter.latest? (name : String) (formats : List Formatter) : Option Formatter :=
  formats.reverse.find? (·.name == name)

namespace Formatter

variable {name : String} {formats : List Formatter}

theorem latest?_concat (name : String) (formats : List Formatter) (f : Formatter) :
    latest? name (formats ++ [f]) = if f.name = name then some f else latest? name formats := by
  rw [latest?, latest?, List.reverse_append, List.reverse_singleton, List.singleton_append, List.find?_cons]
  by_cases h : f.name = name
  · simp [h]
  · rw [if_neg h, beq_eq_false_iff_ne.mpr h]

theorem latest?_eq_none_iff : latest? name formats = none ↔ ∀ f ∈ formats, f.name ≠ name := by
  simp [latest?]

/-- No format of its name was registered after the latest one. -/
theorem latest?_of_append {before after : List Formatter} {f : Formatter} (h : ∀ g ∈ after, g.name ≠ f.name) :
    latest? f.name (before ++ f :: after) = some f := by
  have hafter : after.reverse.find? (·.name == f.name) = none := latest?_eq_none_iff.mpr h
  rw [latest?, List.reverse_append, List.reverse_cons, List.append_assoc, List.find?_append, hafter]
  simp

end Formatter

namespace FormatRegistry

variable {r : FormatRegistry} {formats : List Formatter}

/-- The registry holds what it would if exactly these formats had been registered in this order. -/
def Holds (r : FormatRegistry) (formats : List Formatter) : Prop :=
  ∀ name, r.get? name = Formatter.latest? name formats

theorem holds_empty : empty.Holds [] :=
  fun _ => rfl

theorem Holds.register (h : r.Holds formats) (f : Formatter) : (r.register f).Holds (formats ++ [f]) := by
  intro name
  rw [Formatter.latest?_concat]
  split
  · rename_i hname
    subst hname
    exact get?_register_self r f
  · rename_i hname
    rw [get?_register_of_ne r (Ne.symm hname), h name]

theorem Holds.foldl_register (h : r.Holds formats) (more : List Formatter) :
    (more.foldl FormatRegistry.register r).Holds (formats ++ more) := by
  induction more generalizing r formats with
  | nil => rwa [List.append_nil]
  | cons f more ih =>
    rw [List.foldl_cons, List.append_cons]
    exact ih (h.register f)

theorem holds_defaults : defaults.Holds Formatter.builtin :=
  holds_empty.foldl_register Formatter.builtin

theorem has_eq_isSome (r : FormatRegistry) (name : String) : r.has name = (r.get? name).isSome := rfl

/-- What a registry answers after exactly these formats have been registered in this order. Under each name the
latest format counts; other formats cannot be seen. -/
structure Answers (r : FormatRegistry) (formats : List Formatter) : Prop where
  registered : ∀ before f after, formats = before ++ f :: after → (∀ g ∈ after, g.name ≠ f.name) →
    r.get? f.name = some f ∧ r.has f.name = true ∧
      ∀ (T : Type) (e : Expression T), r.serialize e f.name = f.serialize e.snapshot
  unregistered : ∀ name, (∀ f ∈ formats, f.name ≠ name) →
    r.get? name = none ∧ r.has name = false ∧
      ∀ (T : Type) (e : Expression T), r.serialize e name = .error (.formatNotFound name)
  ascending_names : r.names.Pairwise (· < ·)
  mem_names_iff : ∀ name, name ∈ r.names ↔ r.has name = true

theorem Holds.answers (h : r.Holds formats) : r.Answers formats where
  registered := by
    rintro before f after rfl hlast
    have hget : r.get? f.name = some f := (h f.name).trans (Formatter.latest?_of_append hlast)
    refine ⟨hget, ?_, ?_⟩
    · rw [has_eq_isSome, hget]
      rfl
    · intro T e
      rw [serialize, serializeSnapshot, hget]
  unregistered := by
    intro name hname
    have hget : r.get? name = none := (h name).trans (Formatter.latest?_eq_none_iff.mpr hname)
    refine ⟨hget, ?_, ?_⟩
    · rw [has_eq_isSome, hget]
      rfl
    · intro T e
      rw [serialize, serializeSnapshot, hget]
  ascending_names := r.formatters.pairwise_keys
  mem_names_iff := fun _ => SortedMap.mem_keys_iff

/-- Whatever is registered, and however often under the same name: a registry answers by the latest format of each
name. In one that starts with the formats every caller has, these come before all others, so that they count until
their names are used again. -/
theorem answers_foldl_register (formats : List Formatter) :
    (formats.foldl register empty).Answers formats ∧
      (formats.foldl register defaults).Answers (Formatter.builtin ++ formats) :=
  ⟨(holds_empty.foldl_register formats).answers, (holds_defaults.foldl_register formats).answers⟩

/-- A built-in format gives up its name but not its place in the list of names. -/
example : ([⟨"yaml", "", fun _ => .ok "none"⟩, ⟨"dot", "", fun s => .ok s.label⟩].foldl register defaults).names =
    ["dot", "json", "treeviz", "yaml"] := by
  decide

end FormatRegistry

end Bracketed
