import Bracketed.Proofs.Growth
import Bracketed.Scanner

namespace Bracketed

/-- A group's delimiters and an operator's token are registered ones. -/
def Node.IsRegistered (v : Vocabulary) : Node → Prop
  | .group g => ∃ d ∈ v.groupings, g.grouping = some d
  | .value _ => True
  | .operator o => o.operator < v.operators.length

namespace Scanner

section

variable {α β : Type}

/-- Whatever this part of a reading comes to has the property, unless it is halted. -/
def Yields (m : Except ScanHalt α) (post : α → Prop) : Prop :=
  ∀ a, m = .ok a → post a

variable {m : Except ScanHalt α} {post : α → Prop}

theorem yields_pure {a : α} (h : post a) : Yields (pure a) post := by
  rintro _ ⟨⟩
  exact h

theorem yields_throw (halt : ScanHalt) : Yields (throw halt) post := by
  rintro _ ⟨⟩

theorem Yields.bind {k : α → Except ScanHalt β} {post' : β → Prop} (h : Yields m post)
    (hk : ∀ a, post a → Yields (k a) post') : Yields (m >>= k) post' := by
  intro b hb
  cases m with
  | error halt => cases hb
  | ok a => exact hk a (h a rfl) b hb

end

/-- The nodes so far are a tree that grows at the innermost open group, and all but the root are registered. -/
structure IsSound (v : Vocabulary) (s : Scanner) : Prop where
  grows : Node.GrowsAt s.nodes s.current
  registered : ∀ id n, 0 < id → s.nodes[id]? = some n → n.IsRegistered v

variable {v : Vocabulary} {s : Scanner} {g : GroupNode} {n : Node}

theorem isSound_atStart (v : Vocabulary) (source : String) : (atStart source).IsSound v := by
  have honly {id : Nat} {n : Node} (hn : (atStart source).nodes[id]? = some n) : id = 0 ∧ n.children = [] := by
    cases id with
    | zero => cases hn; exact ⟨rfl, rfl⟩
    | succ id => cases hn
  have hlists (p child : Nat) : ¬ Node.Lists (atStart source).nodes p child := by
    rintro ⟨n, hn, hchild⟩
    rw [(honly hn).2] at hchild
    cases hchild
  constructor
  case grows => exact {
      root := ⟨_, rfl, rfl, rfl⟩
      parent := fun id d hpos hd => absurd (honly hd).1 (Nat.ne_of_gt hpos)
      listed := .nil
      unique := fun p q child hp _ => absurd hp (hlists p child)
      lt := fun p child hp => absurd hp (hlists p child)
      ascending := by
        intro d hd
        obtain ⟨id, hid⟩ := List.mem_iff_getElem?.mp hd
        have hnone : d.children = [] := (honly hid).2
        rw [hnone]
        exact .nil
      next := fun p id hp => absurd hp (hlists p (id + 1))
      group := ⟨_, rfl⟩
      last := .refl }
  case registered => exact fun id n hpos hn => absurd (honly hn).1 (Nat.ne_of_gt hpos)

theorem yields_currentGroup (s : Scanner) : Yields s.currentGroup fun g => s.nodes[s.current]? = some (.group g) := by
  rw [currentGroup]
  split
  · next g hg => exact yields_pure hg
  · exact yields_throw _

namespace IsSound

theorem putGroup (h : s.IsSound v) (hg : s.nodes[s.current]? = some (.group g)) (g' : GroupNode)
    (hparent : g'.parent = g.parent) (hgrouping : g'.grouping = g.grouping) (hchildren : g'.children = g.children) :
    (s.putGroup g').IsSound v where
  grows := h.grows.put hg g' hparent hgrouping hchildren
  registered := by
    intro id n hpos hn
    rw [Scanner.putGroup, Node.getElem?_set_of_some hg] at hn
    split at hn
    · next hid =>
      cases hn
      obtain ⟨d, hd, heq⟩ := h.registered id _ hpos (hid ▸ hg)
      exact ⟨d, hd, hgrouping.trans heq⟩
    · exact h.registered id n hpos hn

/-- Adding a node without children keeps all in order. -/
theorem push (h : s.IsSound v) (n : Node) (hleaf : n.children = []) (hparent : ∀ d, n = .group d → d.parent = some s.current)
    (hregistered : n.IsRegistered v) :
    Yields (s.push n) fun (id, s') => s'.IsSound v ∧ s'.nodes.length = id + 1 ∧ s'.nodes[id]? = some n := by
  obtain ⟨d, hd⟩ := h.grows.group
  have hlt := (List.getElem?_eq_some_iff.mp hd).1
  refine (yields_currentGroup _).bind fun g hg => yields_pure ?_
  have hg' : s.nodes[s.current]? = some (.group g) := (List.getElem?_append_left hlt).symm.trans hg
  have hset (n' : Node) : (s.nodes ++ [n]).set s.current n' = s.nodes.set s.current n' ++ [n] :=
    List.set_append_left _ _ hlt
  have hextends : Node.Extends s.nodes s.current g { g with children := g.children ++ [s.nodes.length] } [n] := {
    group := hg'
    parent := rfl
    grouping := rfl
    children := rfl
    leaves := by simpa using hleaf
    below := by simpa [eq_comm] using hparent }
  refine ⟨⟨?_, ?_⟩, ?_, ?_⟩
  · rw [Scanner.putGroup, hset]
    exact h.grows.extend hextends
  · intro id m hpos hm
    rw [Scanner.putGroup, hset, List.getElem?_append, List.length_set, Node.getElem?_set_of_some hg'] at hm
    split at hm
    · split at hm
      · next hid =>
        cases hm
        exact h.registered id (.group g) hpos (hid ▸ hg')
      · exact h.registered id m hpos hm
    · rw [List.mem_singleton.mp (List.mem_of_getElem? hm)]
      exact hregistered
  · rw [Scanner.putGroup, List.length_set, List.length_append]
    rfl
  · rw [Scanner.putGroup, hset, List.getElem?_append_right (by rw [List.length_set]), List.length_set, Nat.sub_self]
    rfl

theorem openGroup (h : s.IsSound v) {grouping : Grouping} (hmem : grouping ∈ v.groupings) :
    Yields (s.openGroup grouping) (IsSound v) := by
  refine (h.push _ rfl ?_ ?_).bind ?_
  · rintro d ⟨⟩
    rfl
  · exact ⟨grouping, hmem, rfl⟩
  · rintro ⟨id, s'⟩ ⟨hsound, hlength, hid⟩
    exact yields_pure ⟨hsound.grows.enter hlength hid, hsound.registered⟩

/-- The group around the one that is closed lists it. The root stays open. -/
theorem closeGroup (h : s.IsSound v) : Yields s.closeGroup (IsSound v) := by
  refine (yields_currentGroup s).bind fun g hg => yields_pure ?_
  have hput : (s.putGroup { g with span := { g.span with stop := s.index } }).IsSound v := h.putGroup hg _ rfl rfl rfl
  refine ⟨?_, hput.registered⟩
  change Node.GrowsAt (s.putGroup _).nodes (g.parent.getD Expression.rootId)
  rcases Nat.eq_zero_or_pos s.current with hzero | hpos
  · obtain ⟨root, hroot, hnone, _⟩ := h.grows.root
    have hsame : g.parent.getD Expression.rootId = s.current := by
      rw [hzero, hroot] at hg
      cases hg
      rw [hnone, hzero]
      rfl
    rw [hsame]
    exact hput.grows
  · obtain ⟨p, hp, hlists⟩ := hput.grows.parent s.current _ hpos (by
      rw [Scanner.putGroup, Node.getElem?_set_of_some hg, if_pos rfl])
    have habove : g.parent.getD Expression.rootId = p := by
      have hparent : g.parent = some p := hp
      rw [hparent]
      rfl
    rw [habove]
    exact hput.grows.leave hlists

theorem flush (h : s.IsSound v) : Yields s.flush (IsSound v) := by
  -- What is pending plays no part in whether the nodes are in order.
  have hcleared : { s with pending := {} }.IsSound v := ⟨h.grows, h.registered⟩
  rw [Scanner.flush]
  dsimp only
  split
  · exact yields_pure hcleared
  · split
    · exact (yields_currentGroup _).bind fun g hg => yields_pure (hcleared.putGroup hg _ rfl rfl rfl)
    · exact (hcleared.push (.value _) rfl (by simp) trivial).bind fun _ hpushed => yields_pure hpushed.1

theorem step (h : s.IsSound v) : Yields (s.step v) (IsSound v) := by
  rw [Scanner.step]
  split
  · next g hopening =>
    refine h.flush.bind fun flushed hflushed => ?_
    refine (hflushed.openGroup (List.mem_of_find?_eq_some hopening)).bind fun opened hopened => ?_
    exact yields_pure ⟨hopened.grows, hopened.registered⟩
  · have hend : Yields s.currentEnd fun _ => True := fun _ _ => trivial
    refine hend.bind fun closing _ => ?_
    split
    · next token _ =>
      refine h.flush.bind fun flushed hflushed => ?_
      have hadvanced : (flushed.advance token).IsSound v := ⟨hflushed.grows, hflushed.registered⟩
      exact hadvanced.closeGroup
    · split
      · exact yields_throw _
      · split
        · next token slot hoperator =>
          refine h.flush.bind fun flushed hflushed => ?_
          have hadvanced : (flushed.advance token).IsSound v := ⟨hflushed.grows, hflushed.registered⟩
          have hslot := List.mk_mem_zipIdx_iff_getElem?.mp (List.mem_of_find?_eq_some hoperator)
          have hregistered (span : Span) : (Node.operator ⟨slot, span⟩).IsRegistered v :=
            (List.getElem?_eq_some_iff.mp hslot).1
          exact (hadvanced.push _ rfl (by simp) (hregistered _)).bind fun _ hpushed => yields_pure hpushed.1
        · split
          · exact yields_pure ⟨h.grows, h.registered⟩
          · exact yields_pure h

theorem finish (h : s.IsSound v) : Yields s.finish fun nodes =>
    Node.GrowsAt nodes 0 ∧ ∀ id n, 0 < id → nodes[id]? = some n → n.IsRegistered v := by
  refine (yields_currentGroup s).bind fun g hg => ?_
  split
  · exact yields_throw _
  · next hroot =>
    have hput := h.putGroup hg { g with span := ⟨0, s.index⟩ } rfl rfl rfl
    have hzero : s.current = 0 := not_not.mp hroot
    refine yields_pure ⟨?_, hput.registered⟩
    exact hzero ▸ hput.grows

end IsSound

/-- However a text goes on, what is read of it stays in order. -/
theorem IsSound.scanFrom (h : s.IsSound v) : Yields (scanFrom v s) fun nodes =>
    Node.GrowsAt nodes 0 ∧ ∀ id n, 0 < id → nodes[id]? = some n → n.IsRegistered v := by
  induction hlength : s.rest.length using Nat.strongRecOn generalizing s with
  | ind k ih =>
    subst hlength
    rw [Scanner.scanFrom]
    split
    · exact h.flush.bind fun flushed hflushed => hflushed.finish
    · refine h.step.bind fun next hnext => ?_
      split
      · next hshorter => exact ih _ hshorter hnext rfl
      · exact yields_throw _

end Scanner

end Bracketed
