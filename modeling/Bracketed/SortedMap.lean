namespace Bracketed

/-- A finite map from texts, kept as its entries in strictly ascending order of their keys, so that
two maps with the same entries are equal. Keys are ordered by their code points. -/
structure SortedMap (α : Type) where
  entries : List (String × α)
  ascending : entries.Pairwise (fun a b => a.1 < b.1)

namespace SortedMap

variable {α : Type}

/-- Puts an entry into its place among ascending entries, in place of the entry with the same key if
there is one. -/
def insertEntry (key : String) (value : α) : List (String × α) → List (String × α)
  | [] => [(key, value)]
  | (k, v) :: rest =>
    if key < k then (key, value) :: (k, v) :: rest
    else if key = k then (key, value) :: rest
    else (k, v) :: insertEntry key value rest

theorem eq_or_mem_of_mem_insertEntry {key : String} {value : α} {entry : String × α}
    {entries : List (String × α)} (h : entry ∈ insertEntry key value entries) :
    entry = (key, value) ∨ entry ∈ entries := by
  fun_induction insertEntry key value entries <;> simp_all <;> grind

theorem pairwise_insertEntry (key : String) (value : α) {entries : List (String × α)}
    (h : entries.Pairwise (fun a b => a.1 < b.1)) :
    (insertEntry key value entries).Pairwise (fun a b => a.1 < b.1) := by
  induction entries with
  | nil => simp [insertEntry]
  | cons entry rest ih =>
    obtain ⟨k, v⟩ := entry
    obtain ⟨hk, hrest⟩ := List.pairwise_cons.mp h
    rw [insertEntry]
    split
    · rename_i hlt
      refine List.pairwise_cons.mpr ⟨fun e he => ?_, h⟩
      rcases List.mem_cons.mp he with rfl | he
      · exact hlt
      · exact String.lt_trans hlt (hk e he)
    · split
      · rename_i heq
        subst heq
        exact List.pairwise_cons.mpr ⟨hk, hrest⟩
      · rename_i hnlt hne
        refine List.pairwise_cons.mpr ⟨fun e he => ?_, ih hrest⟩
        rcases eq_or_mem_of_mem_insertEntry he with rfl | he
        · exact Std.lt_of_le_of_ne (String.not_lt.mp hnlt) (Ne.symm hne)
        · exact hk e he

/-- The map without entries. -/
def empty : SortedMap α := ⟨[], .nil⟩

instance : EmptyCollection (SortedMap α) := ⟨empty⟩

instance : Inhabited (SortedMap α) := ⟨empty⟩

/-- Gives a key a value, in place of the value it has had so far. -/
def insert (m : SortedMap α) (key : String) (value : α) : SortedMap α :=
  ⟨insertEntry key value m.entries, pairwise_insertEntry key value m.ascending⟩

def get? (m : SortedMap α) (key : String) : Option α :=
  m.entries.lookup key

def contains (m : SortedMap α) (key : String) : Bool :=
  (m.get? key).isSome

/-- The keys in ascending order. -/
def keys (m : SortedMap α) : List String :=
  m.entries.map Prod.fst

/-- The map that results from inserting all entries in order, so that of two with the same key the
later one counts. -/
def ofList (entries : List (String × α)) : SortedMap α :=
  entries.foldl (fun m (key, value) => m.insert key value) empty

@[ext] theorem ext {m n : SortedMap α} (h : m.entries = n.entries) : m = n := by
  cases m
  cases n
  cases h
  rfl

theorem pairwise_keys (m : SortedMap α) : m.keys.Pairwise (· < ·) :=
  List.pairwise_map.mpr m.ascending

theorem lookup_insertEntry_self (key : String) (value : α) (entries : List (String × α)) :
    (insertEntry key value entries).lookup key = some value := by
  fun_induction insertEntry key value entries <;> grind

theorem lookup_insertEntry_of_ne {key other : String} (h : other ≠ key) (value : α)
    (entries : List (String × α)) : (insertEntry key value entries).lookup other = entries.lookup other := by
  fun_induction insertEntry key value entries <;> grind

@[simp] theorem get?_insert_self (m : SortedMap α) (key : String) (value : α) :
    (m.insert key value).get? key = some value :=
  lookup_insertEntry_self key value m.entries

theorem get?_insert_of_ne {key other : String} (h : other ≠ key) (m : SortedMap α) (value : α) :
    (m.insert key value).get? other = m.get? other :=
  lookup_insertEntry_of_ne h value m.entries

theorem mem_keys_iff {m : SortedMap α} {key : String} : key ∈ m.keys ↔ m.contains key = true := by
  rw [contains, get?, List.lookup_isSome_iff, keys, List.mem_map]
  constructor
  · rintro ⟨entry, hentry, rfl⟩
    exact ⟨entry, hentry, beq_self_eq_true _⟩
  · rintro ⟨entry, hentry, hkey⟩
    exact ⟨entry, hentry, (eq_of_beq hkey).symm⟩

end SortedMap

end Bracketed
