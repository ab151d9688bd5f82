import Bracketed.Node
import Mathlib.Data.List.Chain
import Mathlib.Data.List.Range
import Mathlib.Logic.Relation
import Mathlib.Order.Bounds.Basic

namespace Bracketed

namespace Node

/-- The numbers of a node's children. Only groups have any. -/
def children : Node → List Nat
  | .group g => g.children
  | .value _ => []
  | .operator _ => []

/-- The node with the number `id` has `child` among its children. -/
def Lists (all : List Node) (id child : Nat) : Prop :=
  ∃ n, all[id]? = some n ∧ child ∈ n.children

/-- The nodes are one ordered tree below the root, and their numbers are those of a traversal that visits
each node before its children and these from left to right. -/
structure IsPreorder (all : List Node) : Prop where
  root : ∃ g, all[0]? = some (.group g) ∧ g.parent = none ∧ g.grouping = none
  parent : ∀ id g, 0 < id → all[id]? = some (.group g) →
    ∃ p q, g.parent = some p ∧ p < id ∧ all[p]? = some (.group q) ∧ id ∈ q.children
  /-- Taken together, the children of all groups are all nodes but the root, each once. -/
  listed : (all.flatMap Node.children).Perm (List.range' 1 (all.length - 1))
  ascending : ∀ g, .group g ∈ all → g.children.Pairwise (· < ·)
  first : ∀ id g c, all[id]? = some (.group g) → g.children.head? = some c → c = id + 1
  next : ∀ g, .group g ∈ all → g.children.IsChain fun c d =>
    ∃ last, IsGreatest {x | Relation.ReflTransGen (Node.Lists all) c x} last ∧ d = last + 1
  reachable : ∀ id, id < all.length → Relation.ReflTransGen (Node.Lists all) 0 id

/-- The nodes are a tree that is still being built. The next one becomes the last child of `current`. -/
structure GrowsAt (all : List Node) (current : Nat) : Prop where
  root : ∃ g, all[0]? = some (.group g) ∧ g.parent = none ∧ g.grouping = none
  parent : ∀ id g, 0 < id → all[id]? = some (.group g) → ∃ p, g.parent = some p ∧ Lists all p id
  listed : (all.flatMap Node.children).Perm (List.range' 1 (all.length - 1))
  unique : ∀ p q child, Lists all p child → Lists all q child → p = q
  lt : ∀ p child, Lists all p child → p < child
  ascending : ∀ g, .group g ∈ all → g.children.Pairwise (· < ·)
  /-- A node is a child of the node before it or of one that this stands in. -/
  next : ∀ p id, Lists all p (id + 1) → Relation.ReflTransGen (Lists all) p id
  group : ∃ g, all[current]? = some (.group g)
  /-- The last node stands in `current`, or is `current`. -/
  last : Relation.ReflTransGen (Lists all) current (all.length - 1)

variable {all : List Node} {current : Nat}

theorem Lists.exists_group {p child : Nat} (h : Lists all p child) :
    ∃ g, all[p]? = some (.group g) ∧ child ∈ g.children := by
  obtain ⟨n, hn, hchild⟩ := h
  cases n with
  | group g => exact ⟨g, hn, hchild⟩
  | value v => cases hchild
  | operator o => cases hchild

/-- A node that stands in another one stands in one of its children. -/
theorem exists_child_of_reaches {p id : Nat} {g : GroupNode} (hg : all[p]? = some (.group g))
    (hreach : Relation.ReflTransGen (Lists all) p id) (hlt : p < id) :
    ∃ child ∈ g.children, Relation.ReflTransGen (Lists all) child id := by
  rcases hreach.cases_head with rfl | ⟨child, ⟨n, hn, hchild⟩, hbelow⟩
  · exact absurd hlt (Nat.lt_irrefl p)
  · rw [hg] at hn
    cases hn
    exact ⟨child, hchild, hbelow⟩

namespace GrowsAt

section

variable {child : Nat} (h : GrowsAt all current)
include h

theorem length_pos : 0 < all.length := by
  obtain ⟨g, hg, _⟩ := h.root
  exact (List.getElem?_eq_some_iff.mp hg).1

theorem mem_children_iff : child ∈ all.flatMap Node.children ↔ 0 < child ∧ child < all.length := by
  have hpos := h.length_pos
  rw [h.listed.mem_iff, List.mem_range'_1]
  omega

theorem lt_length {p : Nat} (hlists : Lists all p child) : child < all.length := by
  obtain ⟨n, hn, hchild⟩ := hlists
  exact (h.mem_children_iff.mp (List.mem_flatMap.mpr ⟨n, List.mem_of_getElem? hn, hchild⟩)).2

theorem exists_lists (hpos : 0 < child) (hlt : child < all.length) : ∃ p, Lists all p child := by
  obtain ⟨n, hn, hchild⟩ := List.mem_flatMap.mp (h.mem_children_iff.mpr ⟨hpos, hlt⟩)
  obtain ⟨p, hp⟩ := List.mem_iff_getElem?.mp hn
  exact ⟨p, n, hp, hchild⟩

theorem le_of_reaches {p id : Nat} (hreach : Relation.ReflTransGen (Lists all) p id) : p ≤ id := by
  induction hreach with
  | refl => exact Nat.le_refl p
  | tail _ hlists ih => exact ih.trans (Nat.le_of_lt (h.lt _ _ hlists))

/-- What stands in a node are the nodes that directly follow it, up to some last one. -/
theorem reaches_of_le {p middle id : Nat} (hreach : Relation.ReflTransGen (Lists all) p id) (hp : p ≤ middle)
    (hmiddle : middle ≤ id) : Relation.ReflTransGen (Lists all) p middle := by
  induction id with
  | zero => exact (Nat.le_zero.mp hmiddle) ▸ hreach
  | succ id ih =>
    rcases Nat.eq_or_lt_of_le hmiddle with rfl | hlt
    · exact hreach
    · have hbefore : Relation.ReflTransGen (Lists all) p id := by
        rcases hreach.cases_tail with heq | ⟨q, hq, hlists⟩
        · omega
        · exact hq.trans (h.next q id hlists)
      exact ih hbefore (Nat.le_of_lt_succ hlt)

/-- No child of a node stands in another one. -/
theorem not_reaches_sibling {p child other : Nat} (hchild : Lists all p child) (hother : Lists all p other)
    (hne : child ≠ other) : ¬ Relation.ReflTransGen (Lists all) child other := by
  intro hreach
  rcases hreach.cases_tail with heq | ⟨q, hq, hlists⟩
  · exact hne heq.symm
  · rw [h.unique q p other hlists hother] at hq
    exact Nat.lt_irrefl p ((h.lt p child hchild).trans_le (h.le_of_reaches hq))

theorem first {id c : Nat} {g : GroupNode} (hg : all[id]? = some (.group g)) (hc : g.children.head? = some c) :
    c = id + 1 := by
  have hmem := List.mem_of_head? hc
  have hlt := h.lt id c ⟨_, hg, hmem⟩
  obtain ⟨before, rfl⟩ : ∃ k, c = k + 1 := ⟨c - 1, by omega⟩
  rcases Nat.eq_or_lt_of_le (Nat.le_of_lt_succ hlt) with rfl | hinside
  · rfl
  · -- Otherwise the node before the child stands in an earlier child.
    obtain ⟨d, hd, hreach⟩ := exists_child_of_reaches hg (h.next id before ⟨_, hg, hmem⟩) hinside
    have hle := h.le_of_reaches hreach
    obtain ⟨tail, htail⟩ := List.head?_eq_some_iff.mp hc
    have hascending := h.ascending g (List.mem_of_getElem? hg)
    rw [htail] at hd hascending
    rcases List.mem_cons.mp hd with rfl | hd
    · omega
    · have hsmaller := (List.pairwise_cons.mp hascending).1 d hd
      omega

/-- Of two children that follow each other, the second has the number behind all that stand in the first. -/
theorem isGreatest_of_consecutive {id c d : Nat} {g : GroupNode} {front back : List Nat}
    (hg : all[id]? = some (.group g)) (hchildren : g.children = front ++ c :: d :: back) :
    IsGreatest {x | Relation.ReflTransGen (Lists all) c x} (d - 1) ∧ d = d - 1 + 1 := by
  have hc : c ∈ g.children := by simp [hchildren]
  have hd : d ∈ g.children := by simp [hchildren]
  have hlists (child : Nat) (hchild : child ∈ g.children) : Lists all id child := ⟨_, hg, hchild⟩
  have hascending := h.ascending g (List.mem_of_getElem? hg)
  rw [hchildren, List.pairwise_append, List.pairwise_cons] at hascending
  obtain ⟨_, ⟨hafter, hbehind⟩, hbefore⟩ := hascending
  have hcd : c < d := hafter d List.mem_cons_self
  obtain ⟨before, rfl⟩ : ∃ k, d = k + 1 := ⟨d - 1, by omega⟩
  have hid := h.lt id c (hlists c hc)
  refine ⟨⟨?_, ?_⟩, rfl⟩
  · obtain ⟨child, hchild, hreach⟩ :=
      exists_child_of_reaches hg (h.next id before (hlists _ hd)) (by omega)
    have hle := h.le_of_reaches hreach
    have hlisted := hlists child hchild
    have heq : child = c := by
      by_contra hne
      have hlt : child < c := by
        rw [hchildren, List.mem_append, List.mem_cons, List.mem_cons] at hchild
        rcases hchild with hchild | rfl | rfl | hchild
        · exact hbefore child hchild c List.mem_cons_self
        · exact absurd rfl hne
        · omega
        · have hgreater := (List.pairwise_cons.mp hbehind).1 child hchild
          omega
      have hinside := h.reaches_of_le hreach (Nat.le_of_lt hlt) (by omega)
      exact h.not_reaches_sibling hlisted (hlists c hc) hne hinside
    exact heq ▸ hreach
  · intro x hx
    by_contra hnot
    have hinside := h.reaches_of_le hx (Nat.le_of_lt hcd) (by omega)
    exact h.not_reaches_sibling (hlists c hc) (hlists _ hd) (Nat.ne_of_lt hcd) hinside

theorem reachable (id : Nat) (hid : id < all.length) : Relation.ReflTransGen (Lists all) 0 id := by
  induction id using Nat.strongRecOn with
  | ind id ih =>
    rcases Nat.eq_zero_or_pos id with rfl | hpos
    · exact .refl
    · obtain ⟨p, hp⟩ := h.exists_lists hpos hid
      have hlt := h.lt p id hp
      exact (ih p hlt (hlt.trans hid)).tail hp

/-- However far such a tree has grown, its nodes are in order. -/
theorem isPreorder : IsPreorder all where
  root := h.root
  parent id g hpos hg := by
    obtain ⟨p, hp, hlists⟩ := h.parent id g hpos hg
    obtain ⟨q, hq, hchild⟩ := hlists.exists_group
    exact ⟨p, q, hp, h.lt p id hlists, hq, hchild⟩
  listed := h.listed
  ascending := h.ascending
  first id g c hg hc := h.first hg hc
  next g hg := by
    obtain ⟨id, hid⟩ := List.mem_iff_getElem?.mp hg
    rw [List.isChain_iff_forall_rel_of_append_cons_cons]
    intro c d front back hchildren
    exact ⟨d - 1, h.isGreatest_of_consecutive hid hchildren⟩
  reachable := h.reachable

end

end GrowsAt

end Node

end Bracketed
