import Bracketed.Json.Printer
import Bracketed.Proofs.Json.Escape

namespace Bracketed.Json

/-- A value that is made of strings with all the escapes they need, as keys and as values. -/
inductive Value.IsTextual : Value → Prop where
  | string (s : List Char) : IsTextual (.string (escape s))
  | array {items : List Value} (hitems : ∀ v ∈ items, IsTextual v) : IsTextual (.array items)
  | object {members : List (List Char × Value)}
      (hkeys : ∀ m ∈ members, ∃ s, m.1 = escape s) (hvalues : ∀ m ∈ members, IsTextual m.2) :
      IsTextual (.object members)

namespace Value

mutual

/-- The tokens that a value is written with, and then those that come behind it. -/
def tokens : Value → List Token → List Token
  | null, rest => .scalar null :: rest
  | bool b, rest => .scalar (bool b) :: rest
  | number written, rest => .scalar (number written) :: rest
  | string written, rest => .string written :: rest
  | array [], rest => .openBracket :: .closeBracket :: rest
  | array (item :: items), rest =>
    .openBracket :: tokens item (tokensOfItems items (.closeBracket :: rest))
  | object [], rest => .openBrace :: .closeBrace :: rest
  | object ((key, value) :: members), rest =>
    .openBrace :: .string key :: .colon :: tokens value (tokensOfMembers members (.closeBrace :: rest))

/-- The tokens of the items after the first one, and then those that come behind them. -/
def tokensOfItems : List Value → List Token → List Token
  | [], rest => rest
  | item :: items, rest => .comma :: tokens item (tokensOfItems items rest)

/-- The tokens of the members after the first one, and then those that come behind them. -/
def tokensOfMembers : List (List Char × Value) → List Token → List Token
  | [], rest => rest
  | (key, value) :: members, rest =>
    .comma :: .string key :: .colon :: tokens value (tokensOfMembers members rest)

end

end Value

theorem tokens?_of_isBlank {c : Char} {cs : List Char} (h : isBlank c = true) : tokens? (c :: cs) = tokens? cs := by
  rw [tokens?, if_pos h]

theorem tokens?_of_takeToken? {c : Char} {cs rest : List Char} {token : Token} (hc : isBlank c = false)
    (h : takeToken? c cs = some (token, rest)) : tokens? (c :: cs) = (tokens? rest).map (token :: ·) := by
  rw [tokens?, if_neg (Bool.eq_false_iff.mp hc)]
  split
  · next hnone =>
    rw [h] at hnone
    cases hnone
  · next hsome =>
    rw [h] at hsome
    cases hsome
    rfl

theorem tokens?_lineBreak (level : Nat) (cs : List Char) :
    tokens? (Value.lineBreak level ++ cs) = tokens? cs := by
  rw [Value.lineBreak, List.cons_append, tokens?_of_isBlank rfl]
  induction 2 * level with
  | zero => rfl
  | succ n ih => rwa [List.replicate_succ, List.cons_append, tokens?_of_isBlank rfl]

theorem tokens?_escape (s cs : List Char) :
    tokens? ('"' :: (escape s ++ '"' :: cs)) = (tokens? cs).map (.string (escape s) :: ·) := by
  apply tokens?_of_takeToken? rfl
  rw [takeToken?, takeString_escape]
  rfl

namespace Value

theorem tokens?_prettyItems {items : List Value}
    (h : ∀ v ∈ items, ∀ level cs, tokens? (v.pretty level cs) = (tokens? cs).map v.tokens) (level : Nat)
    (cs : List Char) : tokens? (prettyItems level items cs) = (tokens? cs).map (tokensOfItems items) := by
  induction items with
  | nil =>
    rw [prettyItems]
    exact Option.map_id'.symm
  | cons item items ih =>
    rw [prettyItems, tokens?_of_takeToken? rfl rfl, tokens?_lineBreak, h item List.mem_cons_self,
      ih fun v hv => h v (List.mem_cons_of_mem item hv), Option.map_map, Option.map_map]
    rfl

/-- The members of an object, without the brace or the comma before them. -/
theorem tokens?_member {key : List Char} {value : Value} (hkey : ∃ s, key = escape s)
    (h : ∀ level cs, tokens? (value.pretty level cs) = (tokens? cs).map value.tokens) (level : Nat)
    (cs : List Char) : tokens? ('"' :: (key ++ '"' :: ':' :: ' ' :: value.pretty level cs)) =
      (tokens? cs).map fun ts => .string key :: .colon :: value.tokens ts := by
  obtain ⟨s, rfl⟩ := hkey
  rw [tokens?_escape, tokens?_of_takeToken? rfl rfl, tokens?_of_isBlank rfl, h, Option.map_map, Option.map_map]
  rfl

theorem tokens?_prettyMembers {members : List (List Char × Value)} (hkeys : ∀ m ∈ members, ∃ s, m.1 = escape s)
    (h : ∀ m ∈ members, ∀ level cs, tokens? (m.2.pretty level cs) = (tokens? cs).map m.2.tokens) (level : Nat)
    (cs : List Char) : tokens? (prettyMembers level members cs) = (tokens? cs).map (tokensOfMembers members) := by
  induction members with
  | nil =>
    rw [prettyMembers]
    exact Option.map_id'.symm
  | cons m members ih =>
    rw [prettyMembers, tokens?_of_takeToken? rfl rfl, tokens?_lineBreak,
      tokens?_member (hkeys m List.mem_cons_self) (h m List.mem_cons_self),
      ih (fun m hm => hkeys m (List.mem_cons_of_mem _ hm)) fun m hm => h m (List.mem_cons_of_mem _ hm),
      Option.map_map, Option.map_map]
    rfl

/-- The text that a value is written as has the tokens that it is written with. -/
theorem IsTextual.tokens?_pretty {v : Value} (h : v.IsTextual) (level : Nat) (cs : List Char) :
    tokens? (v.pretty level cs) = (tokens? cs).map v.tokens := by
  induction h generalizing level cs with
  | string s =>
    rw [pretty, tokens?_escape]
    rfl
  | @array items hitems ih =>
    cases items with
    | nil =>
      rw [pretty, tokens?_of_takeToken? rfl rfl, tokens?_of_takeToken? rfl rfl, Option.map_map]
      rfl
    | cons item items =>
      rw [pretty, tokens?_of_takeToken? rfl rfl, tokens?_lineBreak, ih item List.mem_cons_self,
        tokens?_prettyItems (fun v hv => ih v (List.mem_cons_of_mem item hv)), tokens?_lineBreak,
        tokens?_of_takeToken? rfl rfl, Option.map_map, Option.map_map, Option.map_map]
      rfl
  | @object members hkeys hvalues ih =>
    cases members with
    | nil =>
      rw [pretty, tokens?_of_takeToken? rfl rfl, tokens?_of_takeToken? rfl rfl, Option.map_map]
      rfl
    | cons m members =>
      rw [pretty, tokens?_of_takeToken? rfl rfl, tokens?_lineBreak,
        tokens?_member (hkeys m List.mem_cons_self) (ih m List.mem_cons_self),
        tokens?_prettyMembers (fun m hm => hkeys m (List.mem_cons_of_mem _ hm))
          (fun m hm => ih m (List.mem_cons_of_mem _ hm)), tokens?_lineBreak,
        tokens?_of_takeToken? rfl rfl, Option.map_map, Option.map_map, Option.map_map]
      rfl

/-- No value begins with a bracket that closes, so an array with items is not taken for an empty one. -/
theorem tokens_ne_closeBracket (v : Value) (ts others : List Token) : v.tokens ts ≠ .closeBracket :: others := by
  cases v with
  | array items => cases items <;> simp [tokens]
  | object members => cases members <;> simp [tokens]
  | null | bool | number | string => simp [tokens]

/-- An item of an array is not taken for a member of an object, since no colon follows it. -/
theorem tokens_ne_member (v : Value) {ts : List Token} (hts : ∀ others, ts ≠ .colon :: others) (key : List Char)
    (others : List Token) : v.tokens ts ≠ .string key :: .colon :: others := by
  cases v with
  | array items => cases items <;> simp [tokens]
  | object members => cases members <;> simp [tokens]
  | string written =>
    rw [tokens]
    intro h
    exact hts others (List.cons_eq_cons.mp h).2
  | null | bool | number => simp [tokens]

theorem tokensOfItems_ne_colon (items : List Value) (ts others : List Token) :
    tokensOfItems items (.closeBracket :: ts) ≠ .colon :: others := by
  cases items <;> simp [tokensOfItems]

/-- Behind an item of an array the other items are read, and then the array goes on as a value. -/
theorem readAfter_tokensOfItems {items : List Value}
    (h : ∀ v ∈ items, ∀ frames ts, readValue frames (v.tokens ts) = readAfter frames v ts) (done : List Value)
    (v : Value) (frames : List Frame) (ts : List Token) :
    readAfter (.array done :: frames) v (tokensOfItems items (.closeBracket :: ts)) =
      readAfter frames (.array (done.reverse ++ v :: items)) ts := by
  induction items generalizing done v with
  | nil => rw [tokensOfItems, readAfter, List.reverse_cons]
  | cons item items ih =>
    rw [tokensOfItems, readAfter, h item List.mem_cons_self,
      ih fun w hw => h w (List.mem_cons_of_mem item hw), List.reverse_cons, List.append_assoc,
      List.singleton_append]
    exact item.tokens_ne_member (tokensOfItems_ne_colon items ts)

theorem readAfter_tokensOfMembers {members : List (List Char × Value)}
    (h : ∀ m ∈ members, ∀ frames ts, readValue frames (m.2.tokens ts) = readAfter frames m.2 ts)
    (done : List (List Char × Value)) (key : List Char) (v : Value) (frames : List Frame) (ts : List Token) :
    readAfter (.object done key :: frames) v (tokensOfMembers members (.closeBrace :: ts)) =
      readAfter frames (.object (done.reverse ++ (key, v) :: members)) ts := by
  induction members generalizing done key v with
  | nil => rw [tokensOfMembers, readAfter, List.reverse_cons]
  | cons m members ih =>
    rw [tokensOfMembers, readAfter, h m List.mem_cons_self,
      ih fun w hw => h w (List.mem_cons_of_mem m hw), List.reverse_cons, List.append_assoc,
      List.singleton_append]

/-- The tokens that a value is written with are read as that value. -/
theorem IsTextual.readValue_tokens {v : Value} (h : v.IsTextual) (frames : List Frame) (ts : List Token) :
    readValue frames (v.tokens ts) = readAfter frames v ts := by
  induction h generalizing frames ts with
  | string s => rw [tokens, readValue]
  | @array items hitems ih =>
    cases items with
    | nil => rw [tokens, readValue]
    | cons item items =>
      rw [tokens, readValue, ih item List.mem_cons_self,
        readAfter_tokensOfItems fun v hv => ih v (List.mem_cons_of_mem item hv)]
      · rfl
      · exact item.tokens_ne_closeBracket _
  | @object members hkeys hvalues ih =>
    cases members with
    | nil => rw [tokens, readValue]
    | cons m members =>
      rw [tokens, readValue, ih m List.mem_cons_self,
        readAfter_tokensOfMembers fun m hm => ih m (List.mem_cons_of_mem _ hm)]
      rfl

/-- The text that a value is written as is read as that value. -/
theorem IsTextual.read?_pretty {v : Value} (h : v.IsTextual) : read? (v.pretty 0 []) = some v := by
  rw [read?, h.tokens?_pretty, tokens?, Option.map_some, Option.bind_eq_bind, Option.bind_some,
    h.readValue_tokens, readAfter]

end Value

end Bracketed.Json
