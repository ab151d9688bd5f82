import Bracketed.Proofs.Preorder

namespace Bracketed

/-- Writing over one entry of a list adds what the new entry has more than the old one. -/
theorem flatMap_set_perm {α β : Type} {f : α → List β} {xs : List α} {i : Nat} {old new : α} {extra : List β}
    (hold : xs[i]? = some old) (hnew : f new = f old ++ extra) :
    ((xs.set i new).flatMap f).Perm (xs.flatMap f ++ extra) := by
  induction xs generalizing i with
  | nil => cases hold
  | cons x xs ih =>
    cases i with
    | zero =>
      cases hold
      rw [List.set_cons_zero, List.flatMap_cons, List.flatMap_cons, hnew, List.append_assoc, List.append_assoc]
      exact List.perm_append_comm.append_left _
    | succ i =>
      rw [List.set_cons_succ, List.flatMap_cons, List.flatMap_cons, List.append_assoc]
      exact (ih hold).append_left _

namespace Node

variable {all : List Node} {current : Nat} {g g' : GroupNode}

theorem getElem?_set_of_some (hg : all[current]? = some (.group g)) (n : Node) (id : Nat) :
    (all.set current n)[id]? = if id = current then some n else all[id]? := by
  have hlt := (List.getElem?_eq_some_iff.mp hg).1
  rw [List.getElem?_set]
  by_cases hid : id = current
  · rw [if_pos hid.symm, if_pos hlt, if_pos hid]
  · rw [if_neg (Ne.symm hid), if_neg hid]

theorem length_set_append (n : Node) (added : List Node) :
    (all.set current n ++ added).length = all.length + added.length := by
  rw [List.length_append, List.length_set]

theorem mem_of_length_le {added : List Node} {id : Nat} {m n : Node} (hid : all.length ≤ id)
    (hn : (all.set current m ++ added)[id]? = some n) : n ∈ added := by
  rw [List.getElem?_append_right (by rwa [List.length_set])] at hn
  exact List.mem_of_getElem? hn

/-- The group at `current` is written over, and nodes without children that are put behind all others become its last
children. Its other links stay. -/
structure Extends (all : List Node) (current : Nat) (g g' : GroupNode) (added : List Node) : Prop where
  group : all[current]? = some (.group g)
  parent : g'.parent = g.parent
  grouping : g'.grouping = g.grouping
  children : g'.children = g.children ++ List.range' all.length added.length
  leaves : ∀ n ∈ added, n.children = []
  below : ∀ d, .group d ∈ added → d.parent = some current

namespace Extends

variable {added : List Node} {p id child : Nat} (w : Extends all current g g' added)
include w

theorem getElem?_of_lt (hid : id < all.length) : (all.set current (.group g') ++ added)[id]? =
    if id = current then some (.group g') else all[id]? := by
  rw [List.getElem?_append_left (by rwa [List.length_set]), getElem?_set_of_some w.group]

theorem current_lt : current < all.length :=
  (List.getElem?_eq_some_iff.mp w.group).1

theorem lists_iff : Lists (all.set current (.group g') ++ added) p child ↔
    Lists all p child ∨ p = current ∧ all.length ≤ child ∧ child < all.length + added.length := by
  rw [← List.mem_range'_1]
  by_cases hp : p < all.length
  · rw [Lists, Lists, w.getElem?_of_lt hp]
    by_cases hcurrent : p = current
    · subst hcurrent
      simp only [if_true, w.group, Option.some.injEq, exists_eq_left', Node.children, w.children, List.mem_append,
        true_and]
    · simp only [hcurrent, if_false, false_and, or_false]
  · have hcurrent : p ≠ current := by
      rintro rfl
      exact hp w.current_lt
    constructor
    · rintro ⟨n, hn, hchild⟩
      rw [w.leaves n (mem_of_length_le (Nat.le_of_not_lt hp) hn)] at hchild
      cases hchild
    · rintro (⟨n, hn, _⟩ | ⟨hp, _⟩)
      · exact absurd (List.getElem?_eq_some_iff.mp hn).1 hp
      · exact absurd hp hcurrent

theorem reaches (h : Relation.ReflTransGen (Lists all) p id) :
    Relation.ReflTransGen (Lists (all.set current (.group g') ++ added)) p id :=
  Relation.ReflTransGen.mono (fun _ _ hlists => w.lists_iff.mpr (Or.inl hlists)) p id h

end Extends

namespace GrowsAt

section

variable {added : List Node} (h : GrowsAt all current) (w : Extends all current g g' added)
include h w

theorem extend_root : ∃ d, (all.set current (.group g') ++ added)[0]? = some (.group d) ∧ d.parent = none ∧
    d.grouping = none := by
  obtain ⟨d, hd, hparent, hgrouping⟩ := h.root
  rw [w.getElem?_of_lt h.length_pos]
  by_cases hid : 0 = current
  · subst hid
    rw [w.group] at hd
    cases hd
    exact ⟨g', if_pos rfl, w.parent.trans hparent, w.grouping.trans hgrouping⟩
  · exact ⟨d, (if_neg hid).trans hd, hparent, hgrouping⟩

theorem extend_parent {id : Nat} {d : GroupNode} (hpos : 0 < id)
    (hd : (all.set current (.group g') ++ added)[id]? = some (.group d)) :
    ∃ p, d.parent = some p ∧ Lists (all.set current (.group g') ++ added) p id := by
  by_cases hid : id < all.length
  · rw [w.getElem?_of_lt hid] at hd
    split at hd
    · next heq =>
      cases hd
      obtain ⟨p, hp, hlists⟩ := h.parent id g hpos (heq ▸ w.group)
      exact ⟨p, w.parent.trans hp, w.lists_iff.mpr (Or.inl hlists)⟩
    · obtain ⟨p, hp, hlists⟩ := h.parent id d hpos hd
      exact ⟨p, hp, w.lists_iff.mpr (Or.inl hlists)⟩
  · have hle := Nat.le_of_not_lt hid
    have hlt := (List.getElem?_eq_some_iff.mp hd).1
    rw [length_set_append] at hlt
    exact ⟨current, w.below d (mem_of_length_le hle hd), w.lists_iff.mpr (Or.inr ⟨rfl, hle, hlt⟩)⟩

theorem extend_listed : ((all.set current (.group g') ++ added).flatMap Node.children).Perm
    (List.range' 1 ((all.set current (.group g') ++ added).length - 1)) := by
  have hpos := h.length_pos
  have hnone : added.flatMap Node.children = [] := List.flatMap_eq_nil_iff.mpr w.leaves
  have hflat : ((all.set current (.group g')).flatMap Node.children).Perm
      (all.flatMap Node.children ++ List.range' all.length added.length) := flatMap_set_perm w.group w.children
  have hrange : List.range' 1 (all.length - 1) ++ List.range' all.length added.length =
      List.range' 1 (all.length + added.length - 1) := by
    have happend := @List.range'_append_1 1 (all.length - 1) added.length
    rwa [show 1 + (all.length - 1) = all.length by omega,
      show all.length - 1 + added.length = all.length + added.length - 1 by omega] at happend
  rw [List.flatMap_append, hnone, List.append_nil, length_set_append, ← hrange]
  exact hflat.trans (h.listed.append_right _)

theorem extend_unique {p q child : Nat} (hp : Lists (all.set current (.group g') ++ added) p child)
    (hq : Lists (all.set current (.group g') ++ added) q child) : p = q := by
  have hold {p : Nat} (hlists : Lists all p child) : ¬ all.length ≤ child := Nat.not_le_of_lt (h.lt_length hlists)
  rw [w.lists_iff] at hp hq
  rcases hp with hp | ⟨rfl, hp, _⟩
  · rcases hq with hq | ⟨rfl, hq, _⟩
    · exact h.unique p q child hp hq
    · exact absurd hq (hold hp)
  · rcases hq with hq | ⟨rfl, hq, _⟩
    · exact absurd hp (hold hq)
    · rfl

theorem extend_lt {p child : Nat} (hlists : Lists (all.set current (.group g') ++ added) p child) : p < child := by
  rcases w.lists_iff.mp hlists with hold | ⟨rfl, hle, _⟩
  · exact h.lt p child hold
  · exact w.current_lt.trans_le hle

theorem extend_ascending {d : GroupNode} (hd : .group d ∈ all.set current (.group g') ++ added) :
    d.children.Pairwise (· < ·) := by
  rcases List.mem_append.mp hd with hd | hd
  · rcases List.mem_or_eq_of_mem_set hd with hd | heq
    · exact h.ascending d hd
    · cases heq
      rw [w.children, List.pairwise_append]
      refine ⟨h.ascending g (List.mem_of_getElem? w.group), List.pairwise_lt_range', ?_⟩
      intro a ha b hb
      exact (h.lt_length ⟨_, w.group, ha⟩).trans_le (List.mem_range'_1.mp hb).1
  · have hnone : d.children = [] := w.leaves _ hd
    rw [hnone]
    exact .nil

theorem extend_next {p id : Nat} (hlists : Lists (all.set current (.group g') ++ added) p (id + 1)) :
    Relation.ReflTransGen (Lists (all.set current (.group g') ++ added)) p id := by
  rcases w.lists_iff.mp hlists with hold | ⟨rfl, hle, hlt⟩
  · exact w.reaches (h.next p id hold)
  · rcases Nat.eq_or_lt_of_le hle with heq | hbehind
    · -- The first of the added nodes comes after what was the last node before.
      have hlast := h.last
      rw [heq, Nat.add_sub_cancel] at hlast
      exact w.reaches hlast
    · exact .single (w.lists_iff.mpr (Or.inr ⟨rfl, Nat.le_of_lt_succ hbehind, by omega⟩))

theorem extend_last : Relation.ReflTransGen (Lists (all.set current (.group g') ++ added)) current
    ((all.set current (.group g') ++ added).length - 1) := by
  rw [length_set_append]
  rcases Nat.eq_zero_or_pos added.length with hnone | hpos
  · rw [hnone]
    exact w.reaches h.last
  · exact .single (w.lists_iff.mpr (Or.inr ⟨rfl, by omega, by omega⟩))

/-- Nodes that are put behind all others keep the order if they become the last children of the innermost open
group. -/
theorem extend : GrowsAt (all.set current (.group g') ++ added) current where
  root := h.extend_root w
  parent _ _ hpos hd := h.extend_parent w hpos hd
  listed := h.extend_listed w
  unique _ _ _ hp hq := h.extend_unique w hp hq
  lt _ _ hlists := h.extend_lt w hlists
  ascending _ hd := h.extend_ascending w hd
  next _ _ hlists := h.extend_next w hlists
  group := ⟨g', (w.getElem?_of_lt w.current_lt).trans (if_pos rfl)⟩
  last := h.extend_last w

end

/-- The innermost open group may be written over if its links stay. -/
theorem put (h : GrowsAt all current) (hg : all[current]? = some (.group g)) (g' : GroupNode)
    (hparent : g'.parent = g.parent) (hgrouping : g'.grouping = g.grouping) (hchildren : g'.children = g.children) :
    GrowsAt (all.set current (.group g')) current := by
  have hextends : Extends all current g g' [] := {
    group := hg
    parent := hparent
    grouping := hgrouping
    children := hchildren.trans (List.append_nil _).symm
    leaves := List.forall_mem_nil _
    below := fun _ hd => absurd hd List.not_mem_nil }
  have hextended := h.extend hextends
  rwa [List.append_nil] at hextended

/-- The last node, if it is a group, may be the next that is added to. -/
theorem enter {last : Nat} (h : GrowsAt all current) (hlast : all.length = last + 1)
    (hg : all[last]? = some (.group g)) : GrowsAt all last :=
  { h with
    group := ⟨g, hg⟩
    last := by
      rw [hlast]
      exact .refl }

/-- So may the group around the one that was added to so far. -/
theorem leave {p : Nat} (h : GrowsAt all current) (hlists : Lists all p current) : GrowsAt all p :=
  { h with
    group := hlists.exists_group.imp fun _ hg => hg.1
    last := h.last.head hlists }

end GrowsAt

end Node

end Bracketed
