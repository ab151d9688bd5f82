import Bracketed.Proofs.Evaluation.Agreement
import Bracketed.Proofs.Evaluation.Fault
import Bracketed.Proofs.Scan.Tokens
import Bracketed.Proofs.Scan.Wrapping

namespace Bracketed

/-- The same error at another place. -/
def EvalError.moveTo (position : Nat) : EvalError → EvalError
  | missingOperator _ => missingOperator (some position)
  | invalidOperand fault _ => invalidOperand fault (some position)

theorem EvalError.index_moveTo (e : EvalError) (position : Nat) : (e.moveTo position).index = some position := by
  cases e <;> rfl

theorem EvalError.orAt_of_index {e : EvalError} {i : Nat} (h : e.index = some i) (position : Nat) :
    e.orAt position = e := by
  rcases e with index | ⟨fault, index⟩ <;> cases h <;> rfl

theorem EvalError.shift_eq_moveTo {e : EvalError} {i : Nat} (h : e.index = some i) (k : Nat) :
    e.shift k = e.moveTo (i + k) := by
  rw [Nat.add_comm]
  rcases e with index | ⟨fault, index⟩ <;> cases h <;> rfl

/-- The same node with `n` nodes and `k` characters more in front of it. -/
def Node.relocate (n k : Nat) : Node → Node
  | group g => group { g with
      parent := g.parent.map (n + ·), children := g.children.map (n + ·), span := g.span.shift k }
  | value v => value { v with span := v.span.shift k }
  | operator o => operator { o with span := o.span.shift k }

namespace Forest

@[simp] theorem size_shift (f : Forest) (k : Nat) : (f.shift k).size = f.size := by
  induction f <;> simp_all [shift, size]

theorem ids_eq_nil_iff {f : Forest} {first : Nat} : f.ids first = [] ↔ f = nil := by
  cases f <;> simp [ids]

theorem ids_shift (f : Forest) (n k first : Nat) : (f.shift k).ids (n + first) = (f.ids first).map (n + ·) := by
  induction f generalizing first with
  | nil => rfl
  | value v rest ih | operator o rest ih =>
    rw [shift, ids, ids, List.map_cons, Nat.add_assoc, ih]
  | group e content rest ihc ihr =>
    rw [shift, ids, ids, List.map_cons, size_shift, Nat.add_assoc, Nat.add_assoc, ← Nat.add_assoc first, ihr]

theorem nodes_shift (f : Forest) (n k parent first : Nat) :
    (f.shift k).nodes (n + parent) (n + first) = (f.nodes parent first).map (Node.relocate n k) := by
  induction f generalizing parent first with
  | nil => rfl
  | value v rest ih | operator o rest ih =>
    rw [shift, nodes, nodes, List.map_cons, Nat.add_assoc, ih]
    rfl
  | group e content rest ihc ihr =>
    rw [shift, nodes_group, nodes_group, List.map_cons, List.map_append, size_shift, Nat.add_assoc, Nat.add_assoc,
      ihc, ihr, Enclosure.node, Enclosure.node, Nat.add_assoc, ids_shift]
    rfl

end Forest

variable {T : Type}

/-- Whenever the run ends with an error, that error has a position. -/
def Run.Positioned {α : Type} (r : Run T α) : Prop :=
  ∀ err, r.result = .error err → ∃ i, err.index = some i

namespace Run

variable {α β : Type} {r : Run T α}

theorem positioned_of_ok {a : α} (h : r.result = .ok a) : r.Positioned := by
  intro err herr
  rw [h] at herr
  cases herr

theorem positioned_orAt (r : Run T α) (position : Nat) : (r.orAt position).Positioned := by
  intro err herr
  obtain ⟨inner, _, rfl⟩ := orAt_eq_error_iff.mp herr
  rw [EvalError.index_orAt]
  cases inner.index with
  | none => exact ⟨position, rfl⟩
  | some i => exact ⟨i, rfl⟩

theorem Positioned.bind {next : α → Run T β} (h : r.Positioned) (hnext : ∀ a, (next a).Positioned) :
    (r >>= next).Positioned := by
  intro err herr
  rcases bind_eq_error_iff.mp herr with hr | ⟨a, _, ha⟩
  · exact h err hr
  · exact hnext a err ha

end Run

namespace Item

theorem fold_operand (a : Associativity) (start : Nat) (reduce : Run T (Resolved T)) :
    fold a [.operand start reduce] = reduce.orAt start := by
  have hnothing : (fun x => foldFrom a x (dropOperand [.operand start reduce])) = pure := by
    funext x
    exact foldFrom_nil a x
  rw [fold_cons, hnothing, bind_pure]
  rfl

theorem positioned_takeFirst (first : Item T) (rest : List (Item T)) : (takeFirst (first :: rest)).Positioned := by
  cases first with
  | operand start reduce | unary u | binary b => exact Run.positioned_orAt _ _

theorem positioned_strayOperand (stray : Item T) (rest : List (Item T)) : (strayOperand stray rest).Positioned := by
  refine (Run.positioned_orAt _ _).bind ?_
  rintro x _ ⟨⟩
  exact ⟨stray.start, rfl⟩

theorem positioned_foldFrom (a : Associativity) (x : Resolved T) (items : List (Item T)) :
    (foldFrom a x items).Positioned := by
  cases a with
  | left =>
    rw [foldFrom]
    fun_induction foldLeftFrom x items with
    | case1 x => exact Run.positioned_of_ok rfl
    | case2 x b right ih =>
      refine (Run.positioned_orAt _ _).bind ?_
      intro y
      exact (Run.positioned_of_ok (r := b.combine x y) rfl).bind ih
    | case3 x stray right h => exact positioned_strayOperand stray right
  | right =>
    cases items with
    | nil => exact Run.positioned_of_ok rfl
    | cons item right =>
      cases item with
      | binary b => exact (Run.positioned_orAt _ _).bind fun y => Run.positioned_of_ok rfl
      | operand start reduce => exact positioned_strayOperand _ _
      | unary u => exact positioned_strayOperand _ _

/-- An error in a fold has a position unless there is nothing to fold. -/
theorem positioned_fold (a : Associativity) (first : Item T) (rest : List (Item T)) :
    (fold a (first :: rest)).Positioned := by
  rw [fold_cons]
  exact (positioned_takeFirst first rest).bind fun x => positioned_foldFrom a x _

end Item

theorem Run.Alike.error?_eq {U : Type} {R : T → U → Prop} {k : Nat} {r : Run T (Resolved T)}
    {s : Run U (Resolved U)} (h : Alike R k r s) : s.error? = r.error?.map (EvalError.shift k) := by
  cases h with
  | ok hr hs => rw [error?, error?, hr, hs]; rfl
  | error hr hs => rw [error?, error?, hr, hs]; rfl

namespace Expression

/-- The expression whose source is that of `e` between the delimiters of `g`, and which holds all nodes of `e` in
one group. -/
def wrap (e : Expression T) (g : Grouping) : Expression T :=
  { e with
    source := g.opening ++ e.source ++ g.closing
    padding := 0
    content := .group ⟨g, ⟨0, (g.opening ++ e.source ++ g.closing).length⟩, e.padding⟩
      (e.content.shift g.opening.length) .nil }

variable (e : Expression T) (g : Grouping) (leaf : String → T)

/-- The root of `e`, folded where it stands and as the content of a group. -/
theorem alike_fold_wrap :
    let m : Meaning T := ⟨e.operators, leaf, e.associativity⟩
    Run.Alike Eq g.opening.length (Item.fold e.associativity (e.content.items m (rootId + 1)))
      (Item.fold e.associativity ((e.content.shift g.opening.length).items m (rootId + 1 + 1))) := by
  intro m
  have hoperators : ∀ index : Nat, Option.Rel (Operator.Alike Eq) m.operators[index]? m.operators[index]? := by
    intro index
    rcases m.operators[index]? with _ | ⟨token, f | f⟩
    · exact .none
    · refine .some (.unary ?_)
      rintro a _ rfl
      rfl
    · refine .some (.binary ?_)
      rintro a _ c _ rfl rfl
      rfl
  exact (Item.alike_foldFrom_and_fold _ (Forest.alike_items ⟨hoperators, fun _ => rfl, rfl⟩ _ _ _ _)).2

/-- Nothing but the group is evaluated, whose place is the beginning of the text. -/
theorem run_wrap :
    (e.wrap g).run leaf =
      (Enclosure.reduce ⟨g, ⟨0, (e.wrap g).source.length⟩, e.padding⟩ e.associativity (rootId + 1)
        ((e.content.shift g.opening.length).items ⟨e.operators, leaf, e.associativity⟩ (rootId + 1 + 1))).orAt 0 := by
  rw [run]
  change (Item.fold e.associativity [.operand 0 _]).orAt 0 >>= pure = _
  rw [bind_pure, Item.fold_operand, Run.orAt_orAt]
  rfl

theorem evaluateWith_wrap_of_ok {r : Resolved T} (h : e.evaluateWith leaf = .ok r) :
    (e.wrap g).evaluateWith leaf = .ok ⟨r.value, r.consumed + g.opening.length + g.closing.length⟩ := by
  rw [evaluateWith, run, Run.bind_eq_ok_iff] at h
  obtain ⟨x, hfold, hr⟩ := h
  cases hr
  rw [Run.orAt_eq_ok_iff] at hfold
  cases e.alike_fold_wrap g leaf with
  | error hx => rw [hx] at hfold; cases hfold
  | @ok x' y hx hy hvalue hconsumed =>
    rw [hx] at hfold
    cases hfold
    rw [evaluateWith, run_wrap, Run.orAt_eq_ok_iff, Enclosure.reduce, Run.bind_eq_ok_iff]
    refine ⟨y, hy, ?_⟩
    have hsum : y.consumed + (g.opening.length + g.closing.length) + e.padding =
        y.consumed + e.padding + g.opening.length + g.closing.length := by omega
    change Except.ok (Resolved.mk y.value (y.consumed + (g.opening.length + g.closing.length) + e.padding)) =
      .ok ⟨x.value, x.consumed + e.padding + g.opening.length + g.closing.length⟩
    rw [hvalue, hconsumed, hsum]

theorem evaluateWith_wrap_of_error {err : EvalError} (h : e.evaluateWith leaf = .error err) :
    ∃ i, err.index = some i ∧ (e.wrap g).evaluateWith leaf =
      .error (err.moveTo (if e.root.children = [] then 0 else i + g.opening.length)) := by
  rw [evaluateWith, ← Run.error?_eq_some_iff, error?_run_eq, Option.map_eq_some_iff] at h
  obtain ⟨inner, hinner, rfl⟩ := h
  have hwrap : (e.wrap g).evaluateWith leaf = .error ((inner.shift g.opening.length).orAt 0) := by
    rw [evaluateWith, ← Run.error?_eq_some_iff, run_wrap, Run.error?_orAt, Enclosure.error?_reduce,
      (e.alike_fold_wrap g leaf).error?_eq, hinner]
    rfl
  rw [hwrap]
  have hchildren : e.root.children = [] ↔ e.content = .nil := Forest.ids_eq_nil_iff
  by_cases hnil : e.content = .nil
  · rw [hnil] at hinner
    cases hinner
    refine ⟨0, rfl, ?_⟩
    rw [if_pos (hchildren.mpr hnil)]
    rfl
  · obtain ⟨first, rest, hitems⟩ := List.exists_cons_of_ne_nil (mt Forest.items_eq_nil_iff.mp hnil)
    rw [hitems, Run.error?_eq_some_iff] at hinner
    obtain ⟨i, hi⟩ := Item.positioned_fold _ _ _ _ hinner
    rw [EvalError.orAt_of_index hi, EvalError.shift_eq_moveTo hi,
      EvalError.orAt_of_index (EvalError.index_moveTo inner _)]
    refine ⟨i, hi, ?_⟩
    rw [if_neg (mt hchildren.mp hnil)]

end Expression

/-- `w` reads as `e` put between the delimiters of `g`: its root holds one group, which holds what the root of `e`
does, one node and a start delimiter further to the right. It evaluates to the same value, which accounts for the
delimiters too, or fails with the same error that much further to the right. An empty root is reported at the
beginning of the source, and so is an empty group that stands there. -/
structure Expression.Wraps (g : Grouping) (e w : Expression T) : Prop where
  source : w.source = g.opening ++ e.source ++ g.closing
  root : w.root = { parent := none, grouping := none, children := [1], span := ⟨0, w.source.length⟩, padding := 0 }
  nodes : w.nodes = .group w.root ::
    .group {
      parent := some rootId
      grouping := some g
      children := e.root.children.map (1 + ·)
      span := ⟨0, w.source.length⟩
      padding := e.padding } ::
    e.nodes.tail.map (Node.relocate 1 g.opening.length)
  leaf : w.leaf = e.leaf
  evaluateWith_ok : ∀ leaf r, e.evaluateWith leaf = .ok r →
    w.evaluateWith leaf = .ok ⟨r.value, r.consumed + g.opening.length + g.closing.length⟩
  evaluateWith_error : ∀ leaf err, e.evaluateWith leaf = .error err → ∃ i, err.index = some i ∧
    w.evaluateWith leaf =
      .error (err.moveTo (if e.root.children = [] then 0 else i + g.opening.length))

theorem Expression.wraps_wrap (e : Expression T) (g : Grouping) : e.Wraps g (e.wrap g) where
  source := rfl
  root := rfl
  nodes := by
    have hnodes : (e.content.shift g.opening.length).nodes 1 (1 + 1) =
        (e.content.nodes rootId 1).map (Node.relocate 1 g.opening.length) :=
      e.content.nodes_shift 1 g.opening.length rootId 1
    have hids := e.content.ids_shift 1 g.opening.length 1
    rw [nodes]
    change _ :: Forest.nodes rootId 1 (.group _ _ _) = _
    rw [Forest.nodes_group, Enclosure.node, hids, hnodes, Forest.nodes, List.append_nil]
    rfl
  leaf := rfl
  evaluateWith_ok _ _ := e.evaluateWith_wrap_of_ok g _
  evaluateWith_error _ _ := e.evaluateWith_wrap_of_error g _

namespace Parser

/-- A text between the delimiters of a grouping reads as one group with what the text itself reads as in it, if its
start delimiter is the one that is found in front, no start delimiter is found in place of its end delimiter, and
no token reaches from the text into the end delimiter. -/
theorem parse_wrapped {p : Parser T} {source : String} {e : Expression T} (h : p.parse source = .ok e) {g : Grouping}
    (hfirst : p.vocabulary.opening? (g.opening ++ source ++ g.closing).toList = some g)
    (hend : ∀ d ∈ p.groupings, ¬ d.opening.toList <+: g.closing.toList)
    (hsep : p.vocabulary.Separates source.toList g.closing.toList) :
    ∃ w, p.parse (g.opening ++ source ++ g.closing) = .ok w ∧ e.Wraps g w := by
  obtain ⟨hvalid, hscans, rfl, hoperators, hassociativity⟩ := parse_spec h
  have htext : (g.opening ++ e.source ++ g.closing).toList =
      g.opening.toList ++ (e.source.toList ++ g.closing.toList) := by
    rw [String.toList_append, String.toList_append, List.append_assoc]
  rw [htext] at hfirst
  have hnone : p.vocabulary.opening? g.closing.toList = none :=
    List.find?_eq_none.mpr fun d hd hbegins => hend d hd (List.isPrefixOf_iff_prefix.mp hbegins)
  have hwrapped := hscans.wrap hvalid hfirst hnone hsep
  rw [← htext] at hwrapped
  have hlength : g.opening.length + e.source.toList.length + g.closing.length =
      (g.opening ++ e.source ++ g.closing).length := by
    rw [String.length_append, String.length_append, String.length_toList]
  rw [hlength] at hwrapped
  have hwrap : p.parse (g.opening ++ e.source ++ g.closing) = .ok (e.wrap g) := by
    rw [parse_of_scans hvalid hwrapped, Expression.wrap, hoperators, hassociativity, leaf_of_parse h]
  exact ⟨e.wrap g, hwrap, e.wraps_wrap g⟩

theorem parse_wrapped_bracketing :
    let g : Grouping := ⟨"(", ")"⟩
    bracketing.parse "a - b - (~c)" = .ok bracketed ∧
      bracketing.vocabulary.opening? (g.opening ++ "a - b - (~c)" ++ g.closing).toList = some g ∧
      (∀ d ∈ bracketing.groupings, ¬ d.opening.toList <+: g.closing.toList) ∧
      bracketing.vocabulary.Separates "a - b - (~c)".toList g.closing.toList ∧
      ∃ w, bracketing.parse "(a - b - (~c))" = .ok w ∧ bracketed.Wraps g w ∧
        w.evaluateWith id = .ok ⟨"[[a-b]-~c]", 14⟩ := by
  intro g
  have hfirst : bracketing.vocabulary.opening? (g.opening ++ "a - b - (~c)" ++ g.closing).toList = some g := by
    decide
  have hend : ∀ d ∈ bracketing.groupings, ¬ d.opening.toList <+: g.closing.toList := by
    decide
  have hsep : bracketing.vocabulary.Separates "a - b - (~c)".toList g.closing.toList := by
    unfold Vocabulary.Separates
    decide
  obtain ⟨w, hparse, hwraps⟩ := parse_wrapped parse_bracketing hfirst hend hsep
  have hlength : 12 + g.opening.length + g.closing.length = 14 := by decide
  have hvalue := hwraps.evaluateWith_ok id _ evaluateWith_bracketed
  rw [hlength] at hvalue
  exact ⟨parse_bracketing, hfirst, hend, hsep, w, hparse, hwraps, hvalue⟩

end Parser

end Bracketed
