import Bracketed.Proofs.Evaluation.Consumption
import Bracketed.Proofs.Outline
import Mathlib.Data.List.Forall2

namespace Bracketed

variable {T : Type}

/-- The same functions between operands of the same values. -/
def Term.TailsAgree (leaf : String → T) : List (BinaryUse T × Term T) → List (BinaryUse T × Term T) → Prop :=
  List.Forall₂ fun p q => p.1.apply = q.1.apply ∧ p.2.value leaf = q.2.value leaf

theorem Term.value_nest_congr {leaf : String → T} (a : Associativity) {x y : Term T}
    {tail tail' : List (BinaryUse T × Term T)} (hvalue : x.value leaf = y.value leaf)
    (htail : TailsAgree leaf tail tail') : (nest a x tail).value leaf = (nest a y tail').value leaf := by
  induction htail generalizing x y with
  | nil => simpa only [nest_nil] using hvalue
  | @cons p q tail tail' hhead htail ih =>
    obtain ⟨b, z⟩ := p
    obtain ⟨c, w⟩ := q
    obtain ⟨happly, hoperand⟩ := hhead
    dsimp only at happly hoperand
    cases a with
    | right => rw [nest, nest, value, value, happly, hvalue, ih hoperand]
    | left =>
      rw [nest, nest]
      exact ih (by rw [value, value, happly, hvalue, hoperand])

/-- The operator is one of those that are registered. -/
def BinaryUse.IsOf (operators : List (Operator T)) (b : BinaryUse T) : Prop :=
  ⟨b.token, .binary b.apply⟩ ∈ operators

/-- Operands with registered operators between them have the same value, whichever of the two associativities
says how they are nested. -/
def Term.NestAlike (operators : List (Operator T)) (leaf : String → T) (a a' : Associativity) : Prop :=
  ∀ (x : Term T) (tail : List (BinaryUse T × Term T)), (∀ p ∈ tail, p.1.IsOf operators) →
    (nest a x tail).value leaf = (nest a' x tail).value leaf

theorem Term.NestAlike.refl (operators : List (Operator T)) (leaf : String → T) (a : Associativity) :
    NestAlike operators leaf a a :=
  fun _ _ _ => rfl

namespace Forest

/-- The operators between operands that siblings are read as are registered. -/
theorem isOf_of_reads {operators : List (Operator T)} {a : Associativity} (f : Forest) :
    (∀ first x tail, f.Reads operators a first x tail → ∀ p ∈ tail, p.1.IsOf operators) ∧
    (∀ first tail, f.Continues operators a first tail → ∀ p ∈ tail, p.1.IsOf operators) := by
  induction f with
  | nil =>
    refine ⟨?_, ?_⟩
    · intro first x tail h
      cases h
    · intro first tail h
      cases h
      exact List.forall_mem_nil _
  | value v rest ih =>
    refine ⟨?_, ?_⟩
    · intro first x tail h
      cases h with
      | value htail => exact ih.2 _ _ htail
    · intro first tail h
      cases h
  | operator o rest ih =>
    refine ⟨?_, ?_⟩
    · intro first x tail h
      cases h with
      | unary hop hrest => exact ih.1 _ _ _ hrest
    · intro first tail h
      cases h with
      | binary hop hrest => exact List.forall_mem_cons.mpr ⟨List.mem_of_getElem? hop, ih.1 _ _ _ hrest⟩
  | group e content rest ihc ihr =>
    refine ⟨?_, ?_⟩
    · intro first x tail h
      cases h with
      | group hcontent htail => exact ihr.2 _ _ htail
    · intro first tail h
      cases h

theorem eq_nil_of_outline {f : Forest} (h : f.outline = .nil) : f = nil := by
  cases f with
  | nil => rfl
  | value v rest | operator o rest | group e content rest => cases h

theorem exists_of_outline_value {f : Forest} {text : String} {rest : Outline} (h : f.outline = .value text rest) :
    ∃ v f', f = value v f' ∧ v.text = text ∧ f'.outline = rest := by
  cases f with
  | nil | operator o f' | group e content f' => cases h
  | value v f' =>
    injection h with htext hrest
    exact ⟨v, f', rfl, htext, hrest⟩

theorem exists_of_outline_operator {f : Forest} {index : Nat} {rest : Outline}
    (h : f.outline = .operator index rest) :
    ∃ o f', f = operator o f' ∧ o.operator = index ∧ f'.outline = rest := by
  cases f with
  | nil | value v f' | group e content f' => cases h
  | operator o f' =>
    injection h with hindex hrest
    exact ⟨o, f', rfl, hindex, hrest⟩

theorem exists_of_outline_group {f : Forest} {g : Grouping} {inside rest : Outline}
    (h : f.outline = .group g inside rest) :
    ∃ e content f', f = group e content f' ∧ e.grouping = g ∧ content.outline = inside ∧ f'.outline = rest := by
  cases f with
  | nil | value v f' | operator o f' => cases h
  | group e content f' =>
    injection h with hgrouping hinside hrest
    exact ⟨e, content, f', rfl, hgrouping, hinside, hrest⟩

/-- Siblings that look the same can be read as operands with the same values, also under another associativity if
it nests operands alike. -/
theorem exists_reads_of_outline_eq {operators : List (Operator T)} {leaf : String → T} {a a' : Associativity}
    (hnest : Term.NestAlike operators leaf a a') (f : Forest) :
    (∀ (f' : Forest) first first' x tail, f'.outline = f.outline → f.Reads operators a first x tail →
      ∃ x' tail', f'.Reads operators a' first' x' tail' ∧ x.value leaf = x'.value leaf ∧
        Term.TailsAgree leaf tail tail') ∧
    (∀ (f' : Forest) first first' tail, f'.outline = f.outline → f.Continues operators a first tail →
      ∃ tail', f'.Continues operators a' first' tail' ∧ Term.TailsAgree leaf tail tail') := by
  induction f with
  | nil =>
    refine ⟨?_, ?_⟩
    · intro f' first first' x tail _ hreads
      cases hreads
    · intro f' first first' tail houtline hcontinues
      cases hcontinues
      obtain rfl := eq_nil_of_outline houtline
      exact ⟨[], .nil, .nil⟩
  | value v rest ih =>
    refine ⟨?_, ?_⟩
    · intro f' first first' x tail houtline hreads
      obtain ⟨v', rest', rfl, htext, hrest⟩ := exists_of_outline_value houtline
      cases hreads with
      | value htail =>
        obtain ⟨tail', htail', hagree⟩ := ih.2 _ _ (first' + 1) _ hrest htail
        exact ⟨_, tail', .value htail', congrArg leaf htext.symm, hagree⟩
    · intro f' first first' tail _ hcontinues
      cases hcontinues
  | operator o rest ih =>
    refine ⟨?_, ?_⟩
    · intro f' first first' x tail houtline hreads
      obtain ⟨o', rest', rfl, hindex, hrest⟩ := exists_of_outline_operator houtline
      cases hreads with
      | unary hop hx =>
        rw [← hindex] at hop
        obtain ⟨x', tail', hx', hvalue, hagree⟩ := ih.1 _ _ (first' + 1) _ _ hrest hx
        refine ⟨_, tail', .unary hop hx', ?_, hagree⟩
        rw [Term.value, Term.value, hvalue]
    · intro f' first first' tail houtline hcontinues
      obtain ⟨o', rest', rfl, hindex, hrest⟩ := exists_of_outline_operator houtline
      cases hcontinues with
      | binary hop hx =>
        rw [← hindex] at hop
        obtain ⟨x', tail', hx', hvalue, hagree⟩ := ih.1 _ _ (first' + 1) _ _ hrest hx
        exact ⟨_, .binary hop hx', .cons ⟨rfl, hvalue⟩ hagree⟩
  | group e content rest ihc ihr =>
    refine ⟨?_, ?_⟩
    · intro f' first first' x tail houtline hreads
      obtain ⟨e', content', rest', rfl, _, hcontent, hrest⟩ := exists_of_outline_group houtline
      cases hreads with
      | group hx htail =>
        obtain ⟨x', inner', hx', hvalue, hinner⟩ := ihc.1 _ _ (first' + 1) _ _ hcontent hx
        obtain ⟨tail', htail', hagree⟩ := ihr.2 _ _ _ _ hrest htail
        have hgroup := (hnest _ _ ((isOf_of_reads content).1 _ _ _ hx)).trans (Term.value_nest_congr a' hvalue hinner)
        exact ⟨_, tail', .group hx' htail', hgroup, hagree⟩
    · intro f' first first' tail _ hcontinues
      cases hcontinues

variable (m : Meaning T)

theorem result_fold_items_of_reads {f : Forest} {first : Nat} {x : Term T} {tail : List (BinaryUse T × Term T)}
    (h : f.Reads m.operators m.associativity first x tail) :
    (Item.fold m.associativity (f.items m first)).result =
      .ok ⟨(Term.nest m.associativity x tail).value m.leaf, (Term.nest m.associativity x tail).extent⟩ := by
  obtain ⟨htake, hfrom⟩ := (fold_items m f).1 first x tail h
  rw [Item.fold_of_takeOperand htake, hfrom, Term.result_run]

/-- What siblings reduce to, if they do, depends on neither their numbers nor their places. -/
theorem value_fold_of_outline_eq {f f' : Forest} (houtline : f'.outline = f.outline) {first : Nat} (first' : Nat)
    {s : Resolved T} (h : (Item.fold m.associativity (f.items m first)).result = .ok s) :
    ∃ s', (Item.fold m.associativity (f'.items m first')).result = .ok s' ∧ s'.value = s.value := by
  obtain ⟨r, htake, hfrom⟩ := Item.takeOperand_of_fold h
  obtain ⟨x, tail, hreads⟩ := (exists_reads_of_items m f).1 first ⟨r, htake⟩ ⟨r, s, hfrom⟩
  obtain ⟨x', tail', hreads', hvalue, hagree⟩ :=
    (exists_reads_of_outline_eq (.refl _ m.leaf _) f).1 f' first first' x tail houtline hreads
  rw [result_fold_items_of_reads m hreads] at h
  cases h
  exact ⟨_, result_fold_items_of_reads m hreads', (Term.value_nest_congr m.associativity hvalue hagree).symm⟩

end Forest

namespace Expression

variable {e : Expression T} {leaf : String → T} {r : Resolved T}

/-- What evaluates is read as operands of the same value wherever it stands, also under another associativity if it
nests operands alike. -/
theorem exists_reads_of_outline_eq (hr : e.evaluateWith leaf = .ok r) {a' : Associativity}
    (hnest : Term.NestAlike e.operators leaf e.associativity a') {f : Forest}
    (houtline : f.outline = e.content.outline) (first : Nat) :
    ∃ x tail x' tail', e.content.Reads e.operators e.associativity 1 x tail ∧ f.Reads e.operators a' first x' tail' ∧
      (Term.nest a' x' tail').value leaf = r.value ∧ Term.TailsAgree leaf tail tail' := by
  obtain ⟨x, tail, hreads⟩ := exists_reads_of_evaluateWith hr
  obtain ⟨x', tail', hreads', hvalue, hagree⟩ :=
    (Forest.exists_reads_of_outline_eq hnest e.content).1 f 1 first x tail houtline hreads
  refine ⟨x, tail, x', tail', hreads, hreads', ?_, hagree⟩
  rw [evaluateWith_of_reads hreads] at hr
  cases hr
  rw [hnest x tail ((Forest.isOf_of_reads e.content).1 1 x tail hreads), Term.value_nest_congr a' hvalue hagree]

/-- The value of a scanned text depends on nothing but the outline and the way operands are nested, and accounts for all
of the text. -/
theorem evaluateWith_of_nestAlike (hr : e.evaluateWith leaf = .ok r) {v : Vocabulary} {s : Expression T}
    {text : List Char} (h : s.content.outline = e.content.outline) (hoperators : s.operators = e.operators)
    (hnest : Term.NestAlike e.operators leaf e.associativity s.associativity)
    (hscans : v.Scans none .run 0 text [] s.padding s.content) (hv : v.operators = s.operators.map Operator.token) :
    s.evaluateWith leaf = .ok ⟨r.value, text.length⟩ := by
  obtain ⟨_, _, x, tail, _, hreads, hvalue, _⟩ := exists_reads_of_outline_eq hr hnest h 1
  rw [← hoperators] at hreads
  rw [evaluateWith_of_reads hreads, hvalue, (hscans.extent_of_reads hv).1 1 x tail hreads]

end Expression

end Bracketed
