import Bracketed.Toml.Reader
import Mathlib.Data.List.Nodup

namespace Bracketed

/-- The entries of a table have names that differ from each other, and values of one kind. -/
structure NamedOnce {α : Type} (P : α → Prop) (entries : List (String × α)) : Prop where
  nodup : (entries.map Prod.fst).Nodup
  values : ∀ p ∈ entries, P p.2

namespace NamedOnce

variable {α : Type} {P : α → Prop} {entries : List (String × α)} {name : String} {value : α}

theorem nil : NamedOnce P [] :=
  ⟨List.nodup_nil, List.forall_mem_nil _⟩

theorem of_lookup (h : NamedOnce P entries) (hlookup : entries.lookup name = some value) : P value := by
  obtain ⟨front, back, rfl, _⟩ := List.lookup_eq_some_iff.mp hlookup
  exact h.values (name, value) (List.mem_append_right _ List.mem_cons_self)

theorem map_fst_putEntry (name : String) (value : α) (entries : List (String × α)) :
    (putEntry name value entries).map Prod.fst =
      if name ∈ entries.map Prod.fst then entries.map Prod.fst else entries.map Prod.fst ++ [name] := by
  fun_induction putEntry name value entries <;> grind

theorem putEntry (h : NamedOnce P entries) (name : String) (hvalue : P value) :
    NamedOnce P (putEntry name value entries) where
  nodup := by
    rw [map_fst_putEntry]
    split
    · exact h.nodup
    · rename_i hnew
      rw [← List.concat_eq_append]
      exact h.nodup.concat hnew
  values := by
    have hvalues := h.values
    clear h
    fun_induction Bracketed.putEntry name value entries with
    | case1 => simpa using hvalue
    | case2 v rest => exact List.forall_mem_cons.mpr ⟨hvalue, (List.forall_mem_cons.mp hvalues).2⟩
    | case3 k v rest hne ih =>
      obtain ⟨hv, hrest⟩ := List.forall_mem_cons.mp hvalues
      exact List.forall_mem_cons.mpr ⟨hv, ih hrest⟩

/-- An entry that is put behind all others in place of the one of its name. -/
theorem filter_concat (h : NamedOnce P entries) (name : String) (hvalue : P value) :
    NamedOnce P (entries.filter (·.1 ≠ name) ++ [(name, value)]) where
  nodup := by
    rw [List.map_append, List.map_singleton, ← List.concat_eq_append]
    refine List.Nodup.concat ?_ (h.nodup.sublist (List.filter_sublist.map _))
    simp
  values := by
    refine List.forall_mem_append.mpr ⟨fun p hp => h.values p (List.mem_of_mem_filter hp), ?_⟩
    simpa using hvalue

end NamedOnce

/-- No table in it has two entries of the same name. -/
inductive Setting.Unambiguous : Setting → Prop where
  | nil : Unambiguous nil
  | bool (b : Bool) : Unambiguous (bool b)
  | int (n : Int) : Unambiguous (int n)
  | float (x : Binary64) : Unambiguous (float x)
  | text (s : String) : Unambiguous (text s)
  | array {items : List Setting} (hitems : ∀ s ∈ items, Unambiguous s) : Unambiguous (array items)
  | table {entries : List (String × Setting)} (hnodup : (entries.map Prod.fst).Nodup)
      (hvalues : ∀ p ∈ entries, Unambiguous p.2) : Unambiguous (table entries)

theorem Setting.Unambiguous.nodup_entries {s : Setting} (h : s.Unambiguous) : (s.entries.map Prod.fst).Nodup := by
  cases h with
  | table hnodup => exact hnodup
  | nil | bool | int | float | text | array => exact List.nodup_nil

namespace Toml

/-- No table in it has two entries of the same name. -/
inductive Value.Unambiguous : Value → Prop where
  | bool (b : Bool) : Unambiguous (bool b)
  | int (n : Int) : Unambiguous (int n)
  | float (x : Binary64) : Unambiguous (float x)
  | text (s : String) : Unambiguous (text s)
  | dateTime (written : String) : Unambiguous (dateTime written)
  | array {items : List Value} (hitems : ∀ v ∈ items, Unambiguous v) : Unambiguous (array items)
  | table {entries : List (String × Value)} (hnodup : (entries.map Prod.fst).Nodup)
      (hvalues : ∀ p ∈ entries, Unambiguous p.2) : Unambiguous (table entries)

/-- No table in it has two entries of the same name. -/
inductive Tree.Unambiguous : Tree → Prop where
  | value {v : Value} (hv : v.Unambiguous) : Unambiguous (value v)
  | table {origin : Origin} {entries : List (String × Tree)} (hnodup : (entries.map Prod.fst).Nodup)
      (hvalues : ∀ p ∈ entries, Unambiguous p.2) : Unambiguous (table origin entries)
  | tables {last : List (String × Tree)} {others : List (List (String × Tree))}
      (hnodup : ∀ entries ∈ last :: others, (entries.map Prod.fst).Nodup)
      (hvalues : ∀ entries ∈ last :: others, ∀ p ∈ entries, Unambiguous p.2) : Unambiguous (tables last others)

namespace Value

theorem markedDateTime?_unambiguous {v : Value} {s : Setting} (h : v.markedDateTime? = some s) : s.Unambiguous := by
  cases v with
  | text w =>
    obtain ⟨written, _, rfl⟩ := Option.map_eq_some_iff.mp h
    exact .text _
  | bool | int | float | dateTime | array | table => cases h

mutual

theorem unambiguous_setting? : (v : Value) → v.Unambiguous → ∀ s, v.setting? = some s → s.Unambiguous
  | bool b, _, s, h => by cases h; exact .bool b
  | int n, _, s, h => by cases h; exact .int n
  | float x, _, s, h => by cases h; exact .float x
  | text w, _, s, h => by cases h; exact .text w
  | dateTime w, _, s, h => by cases h; exact .text w
  | array items, .array hitems, s, h => by
    rw [setting?, Option.map_eq_some_iff] at h
    obtain ⟨settings, hsettings, rfl⟩ := h
    exact .array (unambiguous_itemSettings? items hitems settings hsettings)
  | table [], _, s, h => by
    cases h
    exact .table List.nodup_nil (List.forall_mem_nil _)
  | table ((name, v) :: rest), .table hnodup hvalues, s, h => by
    rw [setting?] at h
    split at h
    · exact markedDateTime?_unambiguous h
    · simp only [Option.bind_eq_bind, Option.bind_eq_some_iff, Option.pure_def, Option.some.injEq] at h
      obtain ⟨t, ht, settings, hsettings, rfl⟩ := h
      obtain ⟨hv, hrest⟩ := List.forall_mem_cons.mp hvalues
      obtain ⟨hnames, hbelow⟩ := unambiguous_entrySettings? rest hrest settings hsettings
      refine .table ?_ (List.forall_mem_cons.mpr ⟨unambiguous_setting? v hv t ht, hbelow⟩)
      rwa [List.map_cons, hnames]

theorem unambiguous_itemSettings? : (items : List Value) → (∀ v ∈ items, v.Unambiguous) →
    ∀ settings, itemSettings? items = some settings → ∀ s ∈ settings, s.Unambiguous
  | [], _, settings, h => by
    cases h
    exact List.forall_mem_nil _
  | v :: rest, hitems, settings, h => by
    rw [itemSettings?] at h
    simp only [Option.bind_eq_bind, Option.bind_eq_some_iff, Option.pure_def, Option.some.injEq] at h
    obtain ⟨t, ht, others, hothers, rfl⟩ := h
    obtain ⟨hv, hrest⟩ := List.forall_mem_cons.mp hitems
    exact List.forall_mem_cons.mpr ⟨unambiguous_setting? v hv t ht, unambiguous_itemSettings? rest hrest others hothers⟩

theorem unambiguous_entrySettings? : (entries : List (String × Value)) → (∀ p ∈ entries, p.2.Unambiguous) →
    ∀ settings, entrySettings? entries = some settings →
      settings.map Prod.fst = entries.map Prod.fst ∧ ∀ p ∈ settings, p.2.Unambiguous
  | [], _, settings, h => by
    cases h
    exact ⟨rfl, List.forall_mem_nil _⟩
  | (name, v) :: rest, hentries, settings, h => by
    rw [entrySettings?] at h
    simp only [Option.bind_eq_bind, Option.bind_eq_some_iff, Option.pure_def, Option.some.injEq] at h
    obtain ⟨t, ht, others, hothers, rfl⟩ := h
    obtain ⟨hv, hrest⟩ := List.forall_mem_cons.mp hentries
    obtain ⟨hnames, hbelow⟩ := unambiguous_entrySettings? rest hrest others hothers
    refine ⟨by rw [List.map_cons, List.map_cons, hnames], ?_⟩
    exact List.forall_mem_cons.mpr ⟨unambiguous_setting? v hv t ht, hbelow⟩

end

end Value

namespace Tree

@[simp] theorem map_fst_toValues (entries : List (String × Tree)) :
    (toValues entries).map Prod.fst = entries.map Prod.fst := by
  induction entries with
  | nil => rfl
  | cons p rest ih => rw [toValues, List.map_cons, List.map_cons, ih]

mutual

theorem unambiguous_toValue : (t : Tree) → t.Unambiguous → (toValue t).Unambiguous
  | value v, .value hv => hv
  | table origin entries, .table hnodup hvalues => by
    refine .table ?_ (unambiguous_toValues entries hvalues)
    rwa [map_fst_toValues]
  | tables last others, .tables hnodup hvalues => by
    obtain ⟨hlast, hothers⟩ := List.forall_mem_cons.mp hnodup
    obtain ⟨hlastValues, hotherValues⟩ := List.forall_mem_cons.mp hvalues
    rw [toValue]
    refine .array fun v hv => ?_
    rcases List.mem_cons.mp (List.mem_reverse.mp hv) with rfl | hv
    · exact .table (by rwa [map_fst_toValues]) (unambiguous_toValues last hlastValues)
    · exact unambiguous_toTables others hothers hotherValues v hv

theorem unambiguous_toValues : (entries : List (String × Tree)) → (∀ p ∈ entries, p.2.Unambiguous) →
    ∀ p ∈ toValues entries, p.2.Unambiguous
  | [], _ => List.forall_mem_nil _
  | (_, t) :: rest, h => by
    obtain ⟨ht, hrest⟩ := List.forall_mem_cons.mp h
    exact List.forall_mem_cons.mpr ⟨unambiguous_toValue t ht, unambiguous_toValues rest hrest⟩

theorem unambiguous_toTables : (all : List (List (String × Tree))) → (∀ entries ∈ all, (entries.map Prod.fst).Nodup) →
    (∀ entries ∈ all, ∀ p ∈ entries, p.2.Unambiguous) → ∀ v ∈ toTables all, v.Unambiguous
  | [], _, _ => List.forall_mem_nil _
  | entries :: rest, hnodup, hvalues => by
    obtain ⟨hentries, hrest⟩ := List.forall_mem_cons.mp hnodup
    obtain ⟨hentryValues, hrestValues⟩ := List.forall_mem_cons.mp hvalues
    refine List.forall_mem_cons.mpr ⟨?_, unambiguous_toTables rest hrest hrestValues⟩
    exact .table (by rwa [map_fst_toValues]) (unambiguous_toValues entries hentryValues)

end

/-- Reading on into a document never leaves two entries of the same name in a table. -/
def KeepsNames (change : Entries → Option Entries) : Prop :=
  ∀ entries result, NamedOnce Unambiguous entries → change entries = some result → NamedOnce Unambiguous result

theorem Unambiguous.of_namedOnce {entries : Entries} (h : NamedOnce Unambiguous entries) (origin : Origin) :
    (Tree.table origin entries).Unambiguous :=
  .table h.nodup h.values

theorem Unambiguous.namedOnce {origin : Origin} {entries : Entries} (h : (Tree.table origin entries).Unambiguous) :
    NamedOnce Unambiguous entries := by
  cases h with
  | table hnodup hvalues => exact ⟨hnodup, hvalues⟩

theorem Unambiguous.namedOnce_tables {last : Entries} {others : List Entries}
    (h : (Tree.tables last others).Unambiguous) : ∀ entries ∈ last :: others, NamedOnce Unambiguous entries := by
  cases h with
  | tables hnodup hvalues => exact fun entries hentries => ⟨hnodup entries hentries, hvalues entries hentries⟩

theorem Unambiguous.of_namedOnce_tables {last : Entries} {others : List Entries}
    (h : ∀ entries ∈ last :: others, NamedOnce Unambiguous entries) : (Tree.tables last others).Unambiguous :=
  .tables (fun entries hentries => (h entries hentries).nodup) fun entries hentries => (h entries hentries).values

theorem keepsNames_descend {origin : Origin} {isOpen : Origin → Bool}
    {change : Option Origin → Entries → Option Entries} (hchange : ∀ here, KeepsNames (change here))
    (path : List String) (here : Option Origin) : KeepsNames (descend origin isOpen change path here) := by
  induction path generalizing here with
  | nil => exact hchange here
  | cons name rest ih =>
    intro entries result hentries h
    rw [descend] at h
    split at h
    · obtain ⟨inner, hinner, hresult⟩ := Option.bind_eq_some_iff.mp h
      cases hresult
      exact hentries.putEntry name (.of_namedOnce (ih _ [] inner .nil hinner) origin)
    · cases h
    · rename_i existing inner hfound
      split at h
      · obtain ⟨inner', hinner, hresult⟩ := Option.bind_eq_some_iff.mp h
        cases hresult
        exact hentries.putEntry name
          (.of_namedOnce (ih _ inner inner' (hentries.of_lookup hfound).namedOnce hinner) existing)
      · cases h
    · rename_i last others hfound
      obtain ⟨last', hlast, hresult⟩ := Option.bind_eq_some_iff.mp h
      cases hresult
      obtain ⟨hlastNamed, hothers⟩ := List.forall_mem_cons.mp (hentries.of_lookup hfound).namedOnce_tables
      exact hentries.putEntry name
        (.of_namedOnce_tables (List.forall_mem_cons.mpr ⟨ih _ last last' hlastNamed hlast, hothers⟩))

theorem keepsNames_addNew (name : String) {v : Value} (hv : v.Unambiguous) : KeepsNames (addNew name v) := by
  intro entries result hentries h
  rw [addNew] at h
  split at h
  · cases h
    exact hentries.putEntry name (.value hv)
  · cases h

theorem keepsNames_addValue (path : List String) (name : String) {v : Value} (hv : v.Unambiguous) :
    KeepsNames (addValue path name v) := by
  cases path with
  | nil => exact keepsNames_addNew name hv
  | cons =>
    refine keepsNames_descend (fun here entries result hentries h => ?_) _ none
    split at h
    · exact keepsNames_addNew name hv entries result hentries h
    · cases h

theorem keepsNames_foldlM {α : Type} {add : α → Entries → Option Entries} {all : List α}
    (hadd : ∀ a ∈ all, KeepsNames (add a)) : KeepsNames (all.foldlM fun entries a => add a entries) := by
  induction all with
  | nil =>
    intro entries result hentries h
    cases h
    exact hentries
  | cons a all ih =>
    intro entries result hentries h
    obtain ⟨ha, hall⟩ := List.forall_mem_cons.mp hadd
    obtain ⟨next, hnext, hresult⟩ := Option.bind_eq_some_iff.mp h
    exact ih hall next result (ha entries next hentries hnext) hresult

theorem keepsNames_addValues {values : List (List String × String × Value)}
    (hvalues : ∀ p ∈ values, p.2.2.Unambiguous) : KeepsNames (addValues values) :=
  keepsNames_foldlM fun p hp => keepsNames_addValue p.1 p.2.1 (hvalues p hp)

theorem keepsNames_addTable (path : List String) (name : String) {values : List (List String × String × Value)}
    (hvalues : ∀ p ∈ values, p.2.2.Unambiguous) : KeepsNames (addTable path name values) := by
  refine keepsNames_descend (fun _ entries result hentries h => ?_) path none
  have hnew : ∀ before, NamedOnce Unambiguous before →
      (addValues values before).bind
        (fun inner => some (entries.filter (·.1 ≠ name) ++ [(name, table .explicit inner)])) = some result →
      NamedOnce Unambiguous result := by
    intro before hbefore h
    obtain ⟨inner, hinner, hresult⟩ := Option.bind_eq_some_iff.mp h
    cases hresult
    have hnamed := keepsNames_addValues hvalues before inner hbefore hinner
    exact hentries.filter_concat name (.of_namedOnce hnamed .explicit)
  split at h
  · exact hnew [] .nil h
  · rename_i inner hfound
    exact hnew inner (hentries.of_lookup hfound).namedOnce h
  · cases h

theorem keepsNames_addItem (path : List String) (name : String) {values : List (List String × String × Value)}
    (hvalues : ∀ p ∈ values, p.2.2.Unambiguous) : KeepsNames (addItem path name values) := by
  refine keepsNames_descend (fun _ entries result hentries h => ?_) path none
  obtain ⟨item, hitem, h⟩ := Option.bind_eq_some_iff.mp h
  have hnamed := keepsNames_addValues hvalues [] item .nil hitem
  split at h
  · cases h
    exact hentries.putEntry name (.of_namedOnce_tables (List.forall_mem_singleton.mpr hnamed))
  · rename_i last others hfound
    cases h
    refine hentries.putEntry name (.of_namedOnce_tables (List.forall_mem_cons.mpr ⟨hnamed, ?_⟩))
    exact (hentries.of_lookup hfound).namedOnce_tables
  · cases h

end Tree

/-- Whatever is read has no table with two entries of the same name in it. -/
def YieldsUnambiguous (take : List Char → Option (Value × List Char)) : Prop :=
  ∀ cs v rest, take cs = some (v, rest) → v.Unambiguous

theorem bare?_unambiguous {cs : List Char} {v : Value} (h : bare? cs = some v) : v.Unambiguous := by
  rw [bare?] at h
  split at h
  · cases h
    exact .bool true
  · split at h
    · cases h
      exact .bool false
    · split at h
      · cases h
        exact .dateTime _
      · split at h
        · cases h
          exact .float _
        · obtain ⟨n, _, rfl⟩ := Option.map_eq_some_iff.mp h
          exact .int n

theorem yieldsUnambiguous_takeBare? : YieldsUnambiguous takeBare? := by
  intro cs v rest h
  have hbare : ∀ {bare rest'}, ((bare? bare).bind fun v => some (v, rest')) = some (v, rest) → v.Unambiguous := by
    intro bare rest' h
    obtain ⟨w, hw, hresult⟩ := Option.bind_eq_some_iff.mp h
    cases hresult
    exact bare?_unambiguous hw
  rw [takeBare?] at h
  simp only at h
  split at h
  · split at h
    · exact hbare h
    · exact hbare h
  · exact hbare h

theorem yieldsUnambiguous_takeFlatValue? : YieldsUnambiguous takeFlatValue? := by
  intro cs v rest h
  rw [takeFlatValue?.eq_def] at h
  split at h
  · obtain ⟨_, _, hresult⟩ := Option.map_eq_some_iff.mp h
    cases hresult
    exact .text _
  · obtain ⟨_, _, hresult⟩ := Option.map_eq_some_iff.mp h
    cases hresult
    exact .text _
  · exact yieldsUnambiguous_takeBare? cs v rest h

section

variable {takeItem : List Char → Option (Value × List Char)} (htake : YieldsUnambiguous takeItem)
include htake

theorem takeItems_unambiguous {fuel : Nat} {cs rest : List Char} {items : List Value}
    (h : takeItems takeItem fuel cs = some (items, rest)) : ∀ v ∈ items, v.Unambiguous := by
  induction fuel generalizing cs rest items with
  | zero => cases h
  | succ fuel ih =>
    rw [takeItems] at h
    split at h
    · cases h
      exact List.forall_mem_nil _
    · obtain ⟨⟨item, behind⟩, hitem, h⟩ := Option.bind_eq_some_iff.mp h
      have hfirst := htake _ item behind hitem
      simp only at h
      split at h
      · obtain ⟨⟨others, _⟩, hothers, hresult⟩ := Option.bind_eq_some_iff.mp h
        cases hresult
        exact List.forall_mem_cons.mpr ⟨hfirst, ih hothers⟩
      · cases h
        exact List.forall_mem_singleton.mpr hfirst
      · cases h

theorem takeEntries_unambiguous {fuel : Nat} {cs rest : List Char} {entries : List (List String × String × Value)}
    (h : takeEntries takeItem fuel cs = some (entries, rest)) : ∀ p ∈ entries, p.2.2.Unambiguous := by
  induction fuel generalizing cs rest entries with
  | zero => cases h
  | succ fuel ih =>
    rw [takeEntries] at h
    obtain ⟨⟨path, name, behindKey⟩, _, h⟩ := Option.bind_eq_some_iff.mp h
    simp only at h
    split at h
    · obtain ⟨⟨v, behind⟩, hvalue, h⟩ := Option.bind_eq_some_iff.mp h
      have hfirst := htake _ v behind hvalue
      simp only at h
      split at h
      · obtain ⟨⟨others, _⟩, hothers, hresult⟩ := Option.bind_eq_some_iff.mp h
        cases hresult
        exact List.forall_mem_cons.mpr ⟨hfirst, ih hothers⟩
      · cases h
        exact List.forall_mem_singleton.mpr hfirst
      · cases h
    · cases h

end

theorem yieldsUnambiguous_takeValue? (nesting : Nat) : YieldsUnambiguous (takeValue? nesting) := by
  induction nesting with
  | zero => exact yieldsUnambiguous_takeFlatValue?
  | succ nesting ih =>
    intro cs v rest h
    rw [takeValue?.eq_def] at h
    simp only at h
    split at h
    · obtain ⟨⟨items, _⟩, hitems, hresult⟩ := Option.bind_eq_some_iff.mp h
      cases hresult
      exact .array (takeItems_unambiguous ih hitems)
    · split at h
      · cases h
        exact .table List.nodup_nil (List.forall_mem_nil _)
      · obtain ⟨⟨values, _⟩, hvalues, h⟩ := Option.bind_eq_some_iff.mp h
        obtain ⟨entries, hentries, hresult⟩ := Option.bind_eq_some_iff.mp h
        cases hresult
        have hnamed := Tree.keepsNames_addValues (takeEntries_unambiguous ih hvalues) [] entries .nil hentries
        exact Tree.unambiguous_toValue _ (.of_namedOnce hnamed .explicit)
    · exact yieldsUnambiguous_takeFlatValue? cs v rest h

/-- The value on a line, if there is one, has no table with two entries of the same name in it. -/
def Line.Unambiguous : Line → Prop
  | value _ _ v => v.Unambiguous
  | table _ _ | item _ _ => True

theorem takeLine?_unambiguous {cs rest : List Char} {line : Line} (h : takeLine? cs = some (line, rest)) :
    line.Unambiguous := by
  rw [takeLine?.eq_def] at h
  split at h
  · obtain ⟨⟨path, name, _⟩, _, h⟩ := Option.bind_eq_some_iff.mp h
    simp only at h
    split at h
    · obtain ⟨_, _, hresult⟩ := Option.bind_eq_some_iff.mp h
      cases hresult
      trivial
    · cases h
  · obtain ⟨⟨path, name, _⟩, _, h⟩ := Option.bind_eq_some_iff.mp h
    simp only at h
    split at h
    · obtain ⟨_, _, hresult⟩ := Option.bind_eq_some_iff.mp h
      cases hresult
      trivial
    · cases h
  · obtain ⟨⟨path, name, _⟩, _, h⟩ := Option.bind_eq_some_iff.mp h
    simp only at h
    split at h
    · obtain ⟨⟨v, behind⟩, hvalue, h⟩ := Option.bind_eq_some_iff.mp h
      obtain ⟨_, _, hresult⟩ := Option.bind_eq_some_iff.mp h
      cases hresult
      exact yieldsUnambiguous_takeValue? _ _ v behind hvalue
    · cases h

theorem takeLines_unambiguous {fuel : Nat} {cs : List Char} {lines : List Line} (h : takeLines fuel cs = some lines) :
    ∀ line ∈ lines, line.Unambiguous := by
  induction fuel generalizing cs lines with
  | zero => cases h
  | succ fuel ih =>
    rw [takeLines] at h
    split at h
    · cases h
      exact List.forall_mem_nil _
    · obtain ⟨⟨line, behind⟩, hline, h⟩ := Option.bind_eq_some_iff.mp h
      obtain ⟨others, hothers, hresult⟩ := Option.bind_eq_some_iff.mp h
      cases hresult
      exact List.forall_mem_cons.mpr ⟨takeLine?_unambiguous hline, ih hothers⟩

/-- The values of a section have no tables with two entries of the same name in them. -/
def Section.Unambiguous (s : Section) : Prop :=
  ∀ p ∈ s.values, p.2.2.Unambiguous

theorem sections_unambiguous {lines : List Line} (h : ∀ line ∈ lines, line.Unambiguous) :
    ∀ s ∈ (sections lines).1 :: (sections lines).2, s.Unambiguous := by
  induction lines with
  | nil => exact List.forall_mem_singleton.mpr (List.forall_mem_nil _)
  | cons line lines ih =>
    obtain ⟨hline, hlines⟩ := List.forall_mem_cons.mp h
    obtain ⟨hfirst, hothers⟩ := List.forall_mem_cons.mp (ih hlines)
    cases line with
    | value path name v => exact List.forall_mem_cons.mpr ⟨List.forall_mem_cons.mpr ⟨hline, hfirst⟩, hothers⟩
    | table | item =>
      exact List.forall_mem_cons.mpr ⟨List.forall_mem_nil _, List.forall_mem_cons.mpr ⟨hfirst, hothers⟩⟩

theorem Section.keepsNames_addTo {s : Section} (h : s.Unambiguous) : Tree.KeepsNames s.addTo := by
  unfold Section.addTo
  split
  · exact Tree.keepsNames_addTable _ _ h
  · exact Tree.keepsNames_addItem _ _ h
  · exact Tree.keepsNames_addValues h

/-- The settings of a document, and all tables in them, have no two entries of the same name. -/
theorem read?_unambiguous {text : String} {settings : List (String × Setting)} (h : read? text = some settings) :
    (Setting.table settings).Unambiguous := by
  rw [read?] at h
  obtain ⟨lines, hlines, h⟩ := Option.bind_eq_some_iff.mp h
  obtain ⟨entries, hentries, h⟩ := Option.bind_eq_some_iff.mp h
  obtain ⟨s, hs, h⟩ := Option.bind_eq_some_iff.mp h
  have hadd := fun s hmem => Section.keepsNames_addTo (sections_unambiguous (takeLines_unambiguous hlines) s hmem)
  have hnamed := Tree.keepsNames_foldlM hadd [] entries .nil hentries
  have hunambiguous : s.Unambiguous :=
    Value.unambiguous_setting? _ (Tree.unambiguous_toValue _ (.of_namedOnce hnamed .explicit)) s hs
  split at h
  · cases h
    exact hunambiguous
  · cases h

end Toml

end Bracketed
