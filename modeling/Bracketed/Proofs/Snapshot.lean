import Bracketed.Snapshot.OfExpression
import Mathlib.Data.List.TakeWhile
import Mathlib.Logic.Function.Basic

namespace Bracketed

variable {T : Type}

/-- No digit is a dot, so the first end of a span can be told from its text. -/
theorem Span.takeWhile_isDigit_text (s : Span) :
    s.text.toList.takeWhile Char.isDigit = s.start.repr.toList := by
  have hdigits : ∀ c ∈ s.start.repr.toList, c.isDigit = true := by
    intro c hc
    rw [Nat.toList_repr] at hc
    exact Nat.isDigit_of_mem_toDigits (by decide) (by decide) hc
  rw [text, String.append_assoc, String.toList_append, Nat.toString_eq_repr,
    List.takeWhile_append_of_pos hdigits, String.toList_append]
  exact List.append_nil _

/-- Both ends of a span can be read off its text. -/
theorem Span.text_injective : Function.Injective Span.text := by
  have hrepr : Function.Injective Nat.repr := by
    apply Function.LeftInverse.injective (g := fun s => Nat.ofDigitChars 10 s.toList 0)
    intro n
    dsimp only
    rw [Nat.toList_repr, Nat.ofDigitChars_toDigits (by decide) (by decide)]
  intro s t h
  have hstart : s.start = t.start := by
    apply hrepr
    rw [← String.toList_inj, ← s.takeWhile_isDigit_text, ← t.takeWhile_isDigit_text, h]
  have hstop : s.stop = t.stop := by
    rw [text, text, hstart, String.append_right_inj, Nat.toString_eq_repr, Nat.toString_eq_repr] at h
    exact hrepr h
  cases s
  cases t
  cases hstart
  cases hstop
  rfl

namespace Snapshot

@[simp] theorem get?_withAttribute_self (s : Snapshot) (key value : String) :
    (s.withAttribute key value).attributes.get? key = some value :=
  s.attributes.get?_insert_self key value

theorem get?_withAttribute_of_ne {key other : String} (h : other ≠ key) (s : Snapshot) (value : String) :
    (s.withAttribute key value).attributes.get? other = s.attributes.get? other :=
  SortedMap.get?_insert_of_ne h s.attributes value

@[simp] theorem get?_span_ofValue (v : Value) : (ofValue v).attributes.get? "span" = some v.span.text :=
  get?_withAttribute_self _ _ _

@[simp] theorem get?_span_ofOperator (operators : List (Operator T)) (o : OperatorUse) :
    (ofOperator operators o).attributes.get? "span" = some o.span.text := by
  rw [ofOperator]
  split <;> exact get?_withAttribute_self _ _ _

@[simp] theorem get?_span_ofGroup (e : Enclosure) (children : List Snapshot) :
    (ofGroup e children).attributes.get? "span" = some e.span.text :=
  get?_withAttribute_self _ _ _

@[simp] theorem kind_ofValue (v : Value) : (ofValue v).kind = "Value" := rfl

@[simp] theorem kind_ofGroup (e : Enclosure) (children : List Snapshot) :
    (ofGroup e children).kind = "Group" := rfl

@[simp] theorem kind_ofOperator (operators : List (Operator T)) (o : OperatorUse) :
    (ofOperator operators o).kind = "Operator" := by
  rw [ofOperator]
  split <;> rfl

theorem ofValue_inj {v w : Value} (h : ofValue v = ofValue w) : v.text = w.text ∧ v.span = w.span := by
  have hspan := congrArg (fun s => s.attributes.get? "span") h
  simp only [get?_span_ofValue, Option.some.injEq] at hspan
  exact ⟨congrArg Snapshot.label h, Span.text_injective hspan⟩

/-- An operator that is registered shows its token. -/
theorem label_ofOperator {operators : List (Operator T)} {o : OperatorUse} {token : String}
    (h : (operators.map Operator.token)[o.operator]? = some token) :
    (ofOperator operators o).label = token := by
  rw [List.getElem?_map, Option.map_eq_some_iff] at h
  obtain ⟨op, hop, rfl⟩ := h
  rw [ofOperator, hop]
  rfl

theorem ofGroup_inj {d e : Enclosure} {children others : List Snapshot}
    (h : ofGroup d children = ofGroup e others) :
    d.grouping = e.grouping ∧ d.span = e.span ∧ children = others := by
  have hget (key : String) := congrArg (fun s => s.attributes.get? key) h
  have hopening := hget "start"
  have hclosing := hget "end"
  have hspan := hget "span"
  simp (disch := decide) only [ofGroup, withChildren, get?_withAttribute_self, get?_withAttribute_of_ne,
    Option.some.injEq] at hopening hclosing hspan
  refine ⟨?_, Span.text_injective hspan, congrArg Snapshot.children h⟩
  cases hd : d.grouping
  cases he : e.grouping
  rw [hd, he] at hopening hclosing
  cases hopening
  cases hclosing
  rfl

end Snapshot

namespace Forest

variable {operators : List (Operator T)} {f : Forest} {others : List Snapshot}

/-- The span of the first of the siblings. -/
def headSpan? : Forest → Option Span
  | nil => none
  | value v _ => some v.span
  | operator o _ => some o.span
  | group e _ _ => some e.span

theorem headSpan?_eq_of_snapshots_eq {g : Forest} (h : f.snapshots operators = g.snapshots operators) :
    f.headSpan? = g.headSpan? := by
  have hshown (f : Forest) :
      ((f.snapshots operators).head?.bind fun s => s.attributes.get? "span") = f.headSpan?.map Span.text := by
    cases f <;> simp [snapshots, headSpan?]
  apply Option.map_injective Span.text_injective
  rw [← hshown f, ← hshown g, h]

theorem eq_nil_of_snapshots (h : f.snapshots operators = []) : f = nil := by
  cases f with
  | nil => rfl
  | value | operator | group => cases h

variable {v : Value} {o : OperatorUse} {e : Enclosure} {children : List Snapshot}

/-- Snapshots that begin with that of a value are those of siblings that begin with one. -/
theorem exists_value_of_snapshots (h : f.snapshots operators = .ofValue v :: others) :
    ∃ w rest, f = value w rest ∧ Snapshot.ofValue w = .ofValue v ∧ rest.snapshots operators = others := by
  cases f with
  | nil => cases h
  | value w rest => exact ⟨w, rest, rfl, List.cons_eq_cons.mp h⟩
  | operator | group =>
    have hkind := congrArg Snapshot.kind (List.cons_eq_cons.mp h).1
    simp at hkind

theorem exists_operator_of_snapshots (h : f.snapshots operators = .ofOperator operators o :: others) :
    ∃ u rest, f = operator u rest ∧ Snapshot.ofOperator operators u = .ofOperator operators o ∧
      rest.snapshots operators = others := by
  cases f with
  | nil => cases h
  | operator u rest => exact ⟨u, rest, rfl, List.cons_eq_cons.mp h⟩
  | value | group =>
    have hkind := congrArg Snapshot.kind (List.cons_eq_cons.mp h).1
    simp at hkind

theorem exists_group_of_snapshots (h : f.snapshots operators = .ofGroup e children :: others) :
    ∃ d content rest, f = group d content rest ∧ d.grouping = e.grouping ∧ d.span = e.span ∧
      content.snapshots operators = children ∧ rest.snapshots operators = others := by
  cases f with
  | nil => cases h
  | group d content rest =>
    obtain ⟨hgroup, hrest⟩ := List.cons_eq_cons.mp h
    obtain ⟨hgrouping, hspan, hchildren⟩ := Snapshot.ofGroup_inj hgroup
    exact ⟨d, content, rest, rfl, hgrouping, hspan, hchildren, hrest⟩
  | value | operator =>
    have hkind := congrArg Snapshot.kind (List.cons_eq_cons.mp h).1
    simp at hkind

end Forest

end Bracketed
