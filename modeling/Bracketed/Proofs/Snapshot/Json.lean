import Bracketed.Proofs.Json.Reading
import Bracketed.Snapshot.Json
import Mathlib.Data.List.Basic

namespace Bracketed

namespace SortedMap

variable {α : Type}

/-- An entry whose key exceeds all others takes the last place. -/
theorem insertEntry_of_lt {key : String} {value : α} {entries : List (String × α)}
    (h : ∀ entry ∈ entries, entry.1 < key) : insertEntry key value entries = entries ++ [(key, value)] := by
  induction entries with
  | nil => rfl
  | cons entry entries ih =>
    have hlt := h entry List.mem_cons_self
    rw [insertEntry, if_neg (String.lt_asymm hlt), if_neg (Ne.symm (Std.ne_of_lt hlt)),
      ih fun e he => h e (List.mem_cons_of_mem entry he), List.cons_append]

theorem entries_foldl_insert (entries : List (String × α)) (m : SortedMap α)
    (h : (m.entries ++ entries).Pairwise (fun a b => a.1 < b.1)) :
    (entries.foldl (fun m (key, value) => m.insert key value) m).entries = m.entries ++ entries := by
  induction entries generalizing m with
  | nil => exact (List.append_nil _).symm
  | cons entry entries ih =>
    have hlast : (m.insert entry.1 entry.2).entries = m.entries ++ [entry] := by
      apply insertEntry_of_lt
      intro e he
      exact (List.pairwise_append.mp h).2.2 e he entry List.mem_cons_self
    have hsplit : m.entries ++ entry :: entries = (m.insert entry.1 entry.2).entries ++ entries := by
      rw [hlast, List.append_assoc, List.singleton_append]
    rw [List.foldl_cons, ih _ (hsplit ▸ h), hsplit]

/-- A map is that of its entries. -/
theorem ofList_entries (m : SortedMap α) : ofList m.entries = m :=
  SortedMap.ext (entries_foldl_insert m.entries empty m.ascending)

end SortedMap

namespace Snapshot

theorem textOfJson?_jsonString (s : String) : textOfJson? (jsonString s) = some s := by
  rw [jsonString, textOfJson?, Json.unescape?_escape, Option.map_some, String.ofList_toList]

/-- What is read back item by item is read back as a list. -/
private theorem mapM_map_eq_some {α β : Type} {read : β → Option α} {write : α → β}
    (h : ∀ x, read (write x) = some x) (l : List α) : (l.map write).mapM read = some l := by
  induction l with
  | nil => rfl
  | cons x l ih =>
    rw [List.map_cons, List.mapM_cons, h, ih]
    rfl

theorem attributesOfJson?_attributesToJson (attributes : SortedMap String) :
    attributesOfJson? (attributesToJson attributes) = some attributes := by
  rw [attributesToJson, attributesOfJson?, mapM_map_eq_some, Option.bind_eq_bind, Option.bind_some,
    SortedMap.ofList_entries, Option.pure_def]
  intro entry
  simp only [Json.unescape?_escape, textOfJson?_jsonString, String.ofList_toList, Option.bind_eq_bind,
    Option.bind_some, Option.pure_def]

/-- A snapshot's own members are those that are read. -/
theorem fieldsOfJson?_toJson (kind label : String) (attributes : SortedMap String) (children : List Snapshot) :
    fieldsOfJson? (toJson ⟨kind, label, attributes, children⟩) = some (jsonString kind, jsonString label,
      attributesToJson attributes, .array (children.map toJson)) := by
  rw [toJson]
  rfl

theorem isTextual_attributesToJson (attributes : SortedMap String) : (attributesToJson attributes).IsTextual := by
  apply Json.Value.IsTextual.object
  · rw [List.forall_mem_map]
    intro entry _
    exact ⟨entry.1.toList, rfl⟩
  · rw [List.forall_mem_map]
    intro entry _
    exact .string entry.2.toList

theorem isTextual_toJson (s : Snapshot) : s.toJson.IsTextual := by
  induction s using toJson.induct with
  | case1 kind label attributes children ih =>
    have hchildren : (Json.Value.array (children.map toJson)).IsTextual :=
      .array (List.forall_mem_map.mpr ih)
    rw [toJson]
    apply Json.Value.IsTextual.object
    · simp only [List.forall_mem_cons]
      exact ⟨⟨"node_type".toList, rfl⟩, ⟨"label".toList, rfl⟩, ⟨"attributes".toList, rfl⟩,
        ⟨"children".toList, rfl⟩, by simp⟩
    · simp only [List.forall_mem_cons]
      exact ⟨.string kind.toList, .string label.toList, isTextual_attributesToJson attributes, hchildren, by simp⟩

/-- How many levels a tree has, the root being the first one. -/
def levels : Snapshot → Nat
  | ⟨_, _, _, children⟩ => (children.map levels).foldr max 0 + 1

theorem levels_le_succ_iff {kind label : String} {attributes : SortedMap String} {children : List Snapshot}
    {n : Nat} : levels ⟨kind, label, attributes, children⟩ ≤ n + 1 ↔ ∀ c ∈ children, c.levels ≤ n := by
  rw [levels, Nat.add_le_add_iff_right]
  induction children with
  | nil => simp
  | cons c children ih => rw [List.map_cons, List.foldr_cons, Nat.max_le, ih, List.forall_mem_cons]

theorem mapM_ofJson?_toJson {nesting limit : Nat} {children : List Snapshot}
    (h : ∀ c ∈ children, ofJson? nesting c.toJson = if c.levels ≤ limit then some c else none) :
    (children.map toJson).mapM (ofJson? nesting) =
      if ∀ c ∈ children, c.levels ≤ limit then some children else none := by
  induction children with
  | nil => rfl
  | cons c children ih =>
    rw [List.map_cons, List.mapM_cons, h c List.mem_cons_self, ih fun d hd => h d (List.mem_cons_of_mem c hd)]
    simp only [List.forall_mem_cons]
    by_cases hc : c.levels ≤ limit
    · by_cases hrest : ∀ d ∈ children, d.levels ≤ limit
      · rw [if_pos hc, if_pos hrest, if_pos ⟨hc, hrest⟩]
        rfl
      · rw [if_pos hc, if_neg hrest, if_neg (mt And.right hrest)]
        rfl
    · rw [if_neg hc, if_neg (mt And.left hc)]
      rfl

/-- Reading goes two levels of nesting down for each level of the tree. -/
theorem ofJson?_toJson (s : Snapshot) (nesting : Nat) :
    ofJson? nesting s.toJson = if s.levels ≤ nesting / 2 then some s else none := by
  induction s using toJson.induct generalizing nesting with
  | case1 kind label attributes children ih =>
    have hpositive : ¬ levels ⟨kind, label, attributes, children⟩ ≤ 0 := by
      rw [levels]
      exact Nat.not_succ_le_zero _
    match nesting with
    | 0 | 1 =>
      rw [if_neg hpositive]
      rfl
    | nesting + 2 =>
      rw [ofJson?, fieldsOfJson?_toJson]
      simp only [Option.bind_eq_bind, Option.bind_some, textOfJson?_jsonString,
        attributesOfJson?_attributesToJson, mapM_ofJson?_toJson fun c hc => ih c hc nesting,
        Nat.add_div_right nesting (Nat.zero_lt_two), levels_le_succ_iff]
      split <;> rfl

/-- What is written as JSON is read as it was, whatever texts it holds, if the tree has no more levels than
reading goes down. Otherwise reading fails. -/
theorem fromJson?_json (s : Snapshot) : fromJson? s.json = if s.levels ≤ 63 then some s else none := by
  rw [fromJson?, json, String.toList_ofList, s.isTextual_toJson.read?_pretty, Option.bind_eq_bind,
    Option.bind_some, ofJson?_toJson]
  rfl

end Snapshot

end Bracketed
