import Bracketed.Proofs.Evaluation.Outline
import Bracketed.Proofs.Scan.Interior
import Bracketed.Proofs.Scan.Tokens

namespace Bracketed

variable {T : Type}

theorem Enclosure.exists_reduce_iff {d : Enclosure} {a : Associativity} {id : Nat} {items : List (Item T)} {z : T} :
    (∃ r, (d.reduce a id items).result = .ok r ∧ r.value = z) ↔
      ∃ r, (Item.fold a items).result = .ok r ∧ r.value = z := by
  constructor
  · rintro ⟨r, hr, rfl⟩
    rw [reduce, Run.bind_eq_ok_iff] at hr
    obtain ⟨s, hfold, hs⟩ := hr
    cases hs
    exact ⟨s, hfold, rfl⟩
  · rintro ⟨s, hfold, rfl⟩
    refine ⟨⟨s.value, s.consumed + d.grouping.delimiterLength + d.padding⟩, ?_, rfl⟩
    rw [reduce, Run.bind_eq_ok_iff]
    exact ⟨s, hfold, rfl⟩

theorem Expression.exists_value_iff {e : Expression T} {leaf : String → T} {z : T} :
    (∃ r, e.evaluateWith leaf = .ok r ∧ r.value = z) ↔
      ∃ r, (Item.fold e.associativity (e.content.items ⟨e.operators, leaf, e.associativity⟩ 1)).result = .ok r ∧
        r.value = z := by
  constructor
  · rintro ⟨r, hr, rfl⟩
    rw [evaluateWith, run, Run.bind_eq_ok_iff] at hr
    obtain ⟨s, hfold, hs⟩ := hr
    cases hs
    exact ⟨s, Run.orAt_eq_ok_iff.mp hfold, rfl⟩
  · rintro ⟨s, hfold, rfl⟩
    refine ⟨⟨s.value, s.consumed + e.padding⟩, ?_, rfl⟩
    rw [evaluateWith, run, Run.bind_eq_ok_iff]
    exact ⟨s, Run.orAt_eq_ok_iff.mpr hfold, rfl⟩

theorem Forest.exists_fold_iff_of_outline_eq (m : Meaning T) {f f' : Forest} (houtline : f.outline = f'.outline)
    (first first' : Nat) {z : T} :
    (∃ r, (Item.fold m.associativity (f.items m first)).result = .ok r ∧ r.value = z) ↔
      ∃ r, (Item.fold m.associativity (f'.items m first')).result = .ok r ∧ r.value = z := by
  constructor
  · rintro ⟨r, hfold, rfl⟩
    exact value_fold_of_outline_eq m houtline.symm first' hfold
  · rintro ⟨r, hfold, rfl⟩
    exact value_fold_of_outline_eq m houtline first hfold

namespace Parser

/-- The text `inside` between the delimiters of the group with the number `id` is read as `inner` when it
stands alone, and that is the group's content at the beginning of a text. -/
structure ReadsAlone (p : Parser T) (e : Expression T) (id : Nat) (d : Enclosure) (content : Forest)
    (inside : String) (inner : Expression T) : Prop where
  standsIn : content.StandsIn e.nodes id (id + 1)
  spells : d.span.Spells e.source.toList
    (d.grouping.opening.toList ++ (inside.toList ++ d.grouping.closing.toList))
  parse : p.parse inside = .ok inner
  padding : inner.padding = d.padding
  shift : inner.content.shift (d.span.start + d.grouping.opening.length) = content
  value_iff : ∀ leaf z, (∃ r, inner.evaluateWith leaf = .ok r ∧ r.value = z) ↔
    ∃ r, (d.reduce e.associativity id
      (content.items ⟨e.operators, leaf, e.associativity⟩ (id + 1))).result = .ok r ∧ r.value = z

/-- What stands between the delimiters of a group parses on its own, as the same nodes with the same padding,
and evaluates to what the group reduces to. -/
theorem parse_interior {p : Parser T} {source : String} {e : Expression T} (h : p.parse source = .ok e)
    {id : Nat} {g : GroupNode} (hpos : 0 < id) (hg : e.nodes[id]? = some (.group g)) :
    ∃ (parent : Nat) (d : Enclosure) (content : Forest) (inside : String) (inner : Expression T),
      g = d.node parent id content ∧ p.ReadsAlone e id d content inside inner := by
  obtain ⟨hvalid, hscans, rfl, hoperators, hassociativity⟩ := parse_spec h
  have hstart : RestAt e.source.toList 0 (e.source.toList ++ []) := by
    rw [List.append_nil]
    exact RestAt.start e.source.toList
  have hlt : id < 1 + e.content.size := by
    have hbound := (List.getElem?_eq_some_iff.mp hg).1
    rw [Expression.length_nodes] at hbound
    omega
  obtain ⟨parent, d, content, inside, after, rfl, hcontent, hspells, _, hinside⟩ :=
    hscans.exists_interior hstart e.content_standsIn hpos hlt hg
  -- Neither what follows the content nor the group around it nor its place matters to how it is read.
  have hroot : p.vocabulary.Scans none .run (d.span.start + d.grouping.opening.length + 0) inside [] d.padding
      content := (hinside.cut hvalid List.nil_prefix).atRoot
  obtain ⟨f, rfl, halone⟩ := hroot.exists_shift
  rw [← String.toList_ofList (l := inside)] at hspells halone
  refine ⟨parent, d, _, String.ofList inside, _, rfl, hcontent, hspells, parse_of_scans hvalid halone, rfl, rfl, ?_⟩
  intro leaf z
  rw [Expression.exists_value_iff, Enclosure.exists_reduce_iff, hoperators, hassociativity]
  exact Forest.exists_fold_iff_of_outline_eq ⟨p.operators, leaf, p.associativity⟩ (f.outline_shift _).symm _ _

theorem parse_interior_bracketing :
    bracketing.parse "a - b - (~c)" = .ok bracketed ∧ 0 < 5 ∧
      bracketed.nodes[5]? = some (.group ⟨some 0, some ⟨"(", ")"⟩, [6, 7], ⟨8, 12⟩, 0⟩) ∧
      ∃ (parent : Nat) (d : Enclosure) (content : Forest) (inside : String) (inner : Expression String),
        ⟨some 0, some ⟨"(", ")"⟩, [6, 7], ⟨8, 12⟩, 0⟩ = d.node parent 5 content ∧
          bracketing.ReadsAlone bracketed 5 d content inside inner :=
  ⟨parse_bracketing, by decide, rfl, parse_interior parse_bracketing (by decide) rfl⟩

end Parser

end Bracketed
