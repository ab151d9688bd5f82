import Bracketed.Proofs.Scan.Tokens
import Bracketed.Proofs.Scan.Matching
import Bracketed.Scanner

namespace Bracketed

namespace Forest

theorem ids_append (f behind : Forest) (first : Nat) :
    (f.append behind).ids first = f.ids first ++ behind.ids (first + f.size) := by
  induction f generalizing first with
  | nil => rfl
  | value v rest ih | operator o rest ih | group e content rest _ ih =>
    rw [append, ids, ids, size, ih, List.cons_append]
    simp only [Nat.add_assoc]

theorem nodes_append (f behind : Forest) (parent first : Nat) :
    (f.append behind).nodes parent first = f.nodes parent first ++ behind.nodes parent (first + f.size) := by
  induction f generalizing first with
  | nil => rfl
  | value v rest ih | operator o rest ih | group e content rest _ ih =>
    rw [append, nodes, nodes, size, ih]
    simp only [Nat.add_assoc, List.cons_append, List.append_assoc]

end Forest

/-- The nodes of a root that holds these siblings and ends at `stop`. -/
def Content.nodes (c : Content) (stop : Nat) : List Node :=
  let root : GroupNode :=
    { parent := none, grouping := none, children := c.forest.ids 1, span := ⟨0, stop⟩, padding := c.padding }
  .group root :: c.forest.nodes Expression.rootId 1

namespace Matcher

/-- The number of the innermost of these open groups, which is the root if there is none. -/
def innermost : List OpenGroup → Nat
  | [] => Expression.rootId
  | o :: around => innermost around + 1 + o.around.forest.size

/-- The node of the innermost of these open groups, whose end has not been reached. -/
def unfinished (opened : List OpenGroup) (padding : Nat) (children : List Nat) : GroupNode where
  parent := opened.tail?.map innermost
  grouping := opened.head?.map OpenGroup.grouping
  children
  span := opened.head?.elim ⟨0, 0⟩ fun o => ⟨o.start, o.start⟩
  padding

/-- The nodes in front of the innermost of these open groups. -/
def nodesAround : List OpenGroup → List Node
  | [] => []
  | o :: around =>
    let number := innermost around
    let children := o.around.forest.ids (number + 1) ++ [innermost (o :: around)]
    nodesAround around ++
      .group (unfinished around o.around.padding children) :: o.around.forest.nodes number (number + 1)

/-- The nodes that the matcher has come to. -/
def nodes (m : Matcher) : List Node :=
  let number := innermost m.opened
  nodesAround m.opened ++
    .group (unfinished m.opened m.content.padding (m.content.forest.ids (number + 1))) ::
      m.content.forest.nodes number (number + 1)

/-- The pending text that begins behind the last token. -/
def pending (m : Matcher) : Pending :=
  if m.run = [] then {} else { text := String.ofList m.run, start := m.start, length := m.run.length }

/-- The scanner that has read what the matcher has. -/
def scanner (m : Matcher) (rest : List Char) : Scanner where
  nodes := m.nodes
  current := innermost m.opened
  pending := m.pending
  rest
  index := m.position

/-- The matcher once it has ended the run. -/
def flushed (m : Matcher) : Matcher :=
  { m with start := m.position, run := [], content := m.flush }

variable {m : Matcher} {opened : List OpenGroup} {n : Node} {inside : List Node}

theorem length_nodesAround (opened : List OpenGroup) : (nodesAround opened).length = innermost opened := by
  induction opened with
  | nil => rfl
  | cons o around ih =>
    rw [nodesAround, innermost, List.length_append, List.length_cons, Forest.length_nodes, ih]
    omega

theorem length_nodes (m : Matcher) : m.nodes.length = innermost m.opened + 1 + m.content.forest.size := by
  rw [nodes, List.length_append, List.length_cons, Forest.length_nodes, length_nodesAround]
  omega

theorem getElem?_innermost : (nodesAround opened ++ n :: inside)[innermost opened]? = some n := by
  rw [← length_nodesAround, List.getElem?_append_right (Nat.le_refl _), Nat.sub_self, List.getElem?_cons_zero]

theorem set_innermost (n' : Node) :
    (nodesAround opened ++ n :: inside).set (innermost opened) n' = nodesAround opened ++ n' :: inside := by
  rw [← length_nodesAround, List.set_append_right _ _ (Nat.le_refl _), Nat.sub_self, List.set_cons_zero]

theorem position_flushed (m : Matcher) : m.flushed.position = m.position :=
  Nat.add_zero _

theorem atStart_scanner (source : String) : atStart.scanner source.toList = .atStart source :=
  rfl

end Matcher

namespace Scanner

/-- The innermost of the groups `opened` is the node `g`, and what stands in it is `inside`. -/
structure StandsIn (s : Scanner) (opened : List OpenGroup) (g : GroupNode) (inside : List Node) : Prop where
  nodes : s.nodes = Matcher.nodesAround opened ++ .group g :: inside
  current : s.current = Matcher.innermost opened

namespace StandsIn

variable {s : Scanner} {opened : List OpenGroup} {g : GroupNode} {inside : List Node}

theorem getElem?_current (h : s.StandsIn opened g inside) : s.nodes[s.current]? = some (.group g) := by
  rw [h.nodes, h.current, Matcher.getElem?_innermost]

theorem currentGroup_eq (h : s.StandsIn opened g inside) : s.currentGroup = .ok g := by
  rw [currentGroup, h.getElem?_current]
  rfl

theorem currentEnd_eq (h : s.StandsIn opened g inside) : s.currentEnd = .ok (g.grouping.map Grouping.closing) := by
  rw [currentEnd, h.getElem?_current]
  rfl

theorem putGroup_eq (h : s.StandsIn opened g inside) (g' : GroupNode) :
    s.putGroup g' = { s with nodes := Matcher.nodesAround opened ++ .group g' :: inside } := by
  rw [putGroup, h.nodes, h.current, Matcher.set_innermost]

theorem push_eq (h : s.StandsIn opened g inside) (n : Node) :
    s.push n = .ok (s.nodes.length, { s with
      nodes := Matcher.nodesAround opened ++
        .group { g with children := g.children ++ [s.nodes.length] } :: (inside ++ [n]) }) := by
  have hadded : { s with nodes := s.nodes ++ [n] }.StandsIn opened g (inside ++ [n]) := by
    refine ⟨?_, h.current⟩
    rw [h.nodes, List.append_assoc, List.cons_append]
  rw [push, hadded.currentGroup_eq]
  exact congrArg (fun s' => Except.ok (s.nodes.length, s')) (hadded.putGroup_eq _)

end StandsIn

/-- The scanner has come to the nodes that the matcher has come to. -/
structure Follows (s : Scanner) (m : Matcher) : Prop where
  nodes : s.nodes = m.nodes
  current : s.current = Matcher.innermost m.opened

namespace Follows

variable {s : Scanner} {m : Matcher}

theorem standsIn (h : s.Follows m) : s.StandsIn m.opened
    (Matcher.unfinished m.opened m.content.padding (m.content.forest.ids (Matcher.innermost m.opened + 1)))
    (m.content.forest.nodes (Matcher.innermost m.opened) (Matcher.innermost m.opened + 1)) :=
  ⟨h.nodes, h.current⟩

/-- A node without children that is added is one more sibling in the innermost open group. -/
theorem push_eq (h : s.Follows m) {n : Node} (f : Forest) (hids : ∀ first, f.ids first = [first])
    (hnodes : ∀ parent first, f.nodes parent first = [n]) :
    s.push n = .ok (m.nodes.length, { s with nodes := { m with content := m.content.append f }.nodes }) := by
  rw [h.standsIn.push_eq, h.nodes, m.length_nodes]
  simp only [Matcher.nodes, Content.append, Forest.ids_append, Forest.nodes_append, hids, hnodes]
  rfl

end Follows

end Scanner

namespace Matcher

variable (m : Matcher) (rest : List Char)

theorem flush_scanner : (m.scanner rest).flush = .ok (m.flushed.scanner rest) := by
  by_cases hrun : m.run = []
  · obtain ⟨start, run, content, opened⟩ := m
    subst hrun
    rfl
  · have hpending : (m.scanner rest).pending = { text := String.ofList m.run, start := m.start, length := m.run.length } :=
      if_neg hrun
    have hlength : m.run.length ≠ 0 := fun hzero => hrun (List.length_eq_zero_iff.mp hzero)
    have hfollows : Scanner.Follows { m.scanner rest with pending := {} } m := ⟨rfl, rfl⟩
    rw [Scanner.flush, hpending]
    dsimp only
    rw [if_neg hlength, String.toList_ofList]
    rcases Text.trim_cases m.run with ⟨htrim, hblank⟩ | ⟨lead, trail, hsplit, hleading, hlead, htrail, hword⟩
    · have hflush : m.flush = { m.content with padding := m.content.padding + m.run.length } :=
        if_pos (List.all_eq_true.mpr hblank)
      rw [htrim, List.isEmpty_nil, if_pos rfl, hfollows.standsIn.currentGroup_eq]
      refine (congrArg Except.ok (hfollows.standsIn.putGroup_eq _)).trans ?_
      rw [scanner, nodes, flushed, hflush]
      rfl
    · have hnot : ¬ m.run.all Text.isBlank = true := by
        intro hall
        exact hword.ne_nil (Text.trim_of_blank (List.all_eq_true.mp hall))
      have hempty : ¬ (Text.trim m.run).isEmpty = true := by
        rw [List.isEmpty_iff]
        exact hword.ne_nil
      have hflush : m.flush = _ := if_neg hnot
      rw [if_neg hempty]
      refine (congrArg (· >>= _) (hfollows.push_eq (.value _ .nil) (fun _ => rfl) (fun _ _ => rfl))).trans ?_
      rw [scanner, nodes, flushed, hflush]
      rfl

/-- The end delimiter of the innermost open group is that of its node. -/
theorem currentEnd_scanner :
    (m.scanner rest).currentEnd = .ok ((m.groups.head?.map Prod.snd).map Grouping.closing) := by
  have hfollows : (m.scanner rest).Follows m := ⟨rfl, rfl⟩
  rw [hfollows.standsIn.currentEnd_eq, groups, List.head?_map]
  cases m.opened <;> rfl

/-- A group that is opened is the last child of the one around it. -/
theorem nodes_enter (g : Grouping) : (m.enter g).nodes =
    nodesAround m.opened ++ .group (unfinished m.opened m.flush.padding
        (m.flush.forest.ids (innermost m.opened + 1) ++ [innermost (m.enter g).opened])) ::
      (m.flush.forest.nodes (innermost m.opened) (innermost m.opened + 1) ++
        [.group (unfinished (m.enter g).opened 0 [])]) := by
  change (nodesAround m.opened ++ .group _ :: _) ++ [_] = _
  rw [List.append_assoc, List.cons_append]
  rfl

/-- A group that is closed has its end, and nothing else changes. -/
theorem nodes_leave (o : OpenGroup) (around : List OpenGroup) : (m.leave o around).nodes =
    nodesAround (o :: around) ++
      .group { unfinished (o :: around) m.flush.padding (m.flush.forest.ids (innermost (o :: around) + 1)) with
        span := ⟨o.start, m.position + o.grouping.closing.length⟩ } ::
      m.flush.forest.nodes (innermost (o :: around)) (innermost (o :: around) + 1) := by
  have hnumber : innermost around + 1 + o.around.forest.size = innermost (o :: around) := rfl
  change nodesAround around ++ .group (unfinished around _ ((o.around.forest.append _).ids (innermost around + 1))) ::
    (o.around.forest.append _).nodes (innermost around) (innermost around + 1) = _
  rw [Forest.ids_append, Forest.nodes_append, hnumber, nodesAround, List.append_assoc, List.cons_append]
  simp only [Forest.nodes, Forest.ids, List.append_nil]
  rfl

/-- Opening a group and passing its start delimiter. -/
theorem openGroup_scanner (g : Grouping) :
    (do let s ← (m.flushed.scanner rest).openGroup g; return s.advance g.opening) =
      .ok ((m.enter g).scanner (rest.drop g.opening.length)) := by
  have hfollows : (m.flushed.scanner rest).Follows m.flushed := ⟨rfl, rfl⟩
  have hnumber : (m.flushed.scanner rest).nodes.length = innermost (m.enter g).opened := m.flushed.length_nodes
  rw [Scanner.openGroup, hfollows.standsIn.push_eq, hnumber]
  exact congrArg (fun all => Except.ok { (m.enter g).scanner (rest.drop g.opening.length) with nodes := all })
    (nodes_enter m g).symm

/-- Passing an end delimiter and closing the group. -/
theorem closeGroup_scanner {o : OpenGroup} {around : List OpenGroup} (h : m.opened = o :: around) :
    ((m.flushed.scanner rest).advance o.grouping.closing).closeGroup =
      .ok ((m.leave o around).scanner (rest.drop o.grouping.closing.length)) := by
  have hfollows : ((m.flushed.scanner rest).advance o.grouping.closing).Follows m.flushed := ⟨rfl, rfl⟩
  have hstands := hfollows.standsIn
  rw [show m.flushed.opened = o :: around from h] at hstands
  rw [Scanner.closeGroup, hstands.currentGroup_eq]
  refine (congrArg (fun s => Except.ok { s with current := innermost around }) (hstands.putGroup_eq _)).trans ?_
  exact congrArg (fun all => Except.ok { (m.leave o around).scanner (rest.drop o.grouping.closing.length) with nodes := all })
    (nodes_leave m o around).symm

/-- Passing an operator and adding its node. -/
theorem pushOperator_scanner (index : Nat) (token : String) :
    ((m.flushed.scanner rest).advance token).push
        (.operator ⟨index, ⟨m.position, m.position + token.length⟩⟩) =
      .ok (m.flushed.nodes.length, (m.pushOperator index token).scanner (rest.drop token.length)) := by
  have hfollows : ((m.flushed.scanner rest).advance token).Follows m.flushed := ⟨rfl, rfl⟩
  exact hfollows.push_eq (.operator _ .nil) (fun _ => rfl) (fun _ _ => rfl)

theorem accumulate_scanner (c : Char) (cs : List Char) :
    (m.scanner (c :: cs)).accumulate c = (m.pushChar c).scanner cs := by
  have hpending : (m.pushChar c).pending =
      { text := String.ofList (m.run ++ [c]), start := m.start, length := m.run.length + 1 } := by
    rw [pending, pushChar, if_neg (List.append_ne_nil_of_right_ne_nil m.run (List.cons_ne_nil c [])),
      List.length_append, List.length_singleton]
  have hposition : (m.pushChar c).position = m.position + 1 := by
    rw [position, position, pushChar, List.length_append]
    rfl
  rw [Scanner.accumulate, scanner, scanner, hpending, hposition]
  by_cases hrun : m.run = []
  · obtain ⟨start, run, content, opened⟩ := m
    subst hrun
    rfl
  · have hlength : m.run.length ≠ 0 := fun hzero => hrun (List.length_eq_zero_iff.mp hzero)
    have htext : (String.ofList m.run).push c = String.ofList (m.run ++ [c]) := by
      rw [← String.toList_inj, String.toList_push, String.toList_ofList, String.toList_ofList]
    rw [pending, if_neg hrun]
    dsimp only
    rw [if_neg hlength, htext]
    rfl

theorem exists_opened_of_groups {m : Matcher} {g : Grouping} (h : m.groups.head?.map Prod.snd = some g) :
    ∃ o around, m.opened = o :: around ∧ o.grouping = g := by
  rw [groups] at h
  cases hopened : m.opened with
  | nil =>
    rw [hopened] at h
    cases h
  | cons o around =>
    rw [hopened] at h
    exact ⟨o, around, rfl, Option.some.inj h⟩

/-- The scanner steps to where the matcher steps when it reads the token that is found there. -/
theorem step_scanner (v : Vocabulary) (c : Char) (cs : List Char) :
    (m.scanner (c :: cs)).step v = do
      let token ← (v.tokenAt (m.groups.head?.map Prod.snd) c cs).mapError fun g =>
        .failed (.unbalancedEnd g.closing m.position)
      let m' ← (m.step token.lexeme).mapError .failed
      return m'.scanner ((c :: cs).drop token.length) := by
  have hrest : (m.scanner (c :: cs)).rest = c :: cs := rfl
  rw [Scanner.step, Vocabulary.tokenAt, hrest]
  cases v.opening? (c :: cs) with
  | some g =>
    dsimp only
    rw [flush_scanner]
    refine (openGroup_scanner m (c :: cs) g).trans ?_
    rw [← Token.length_opening]
    rfl
  | none =>
    dsimp only
    rw [currentEnd_scanner]
    refine (pure_bind _ _).trans ?_
    rw [Option.filter_map, Function.comp_def]
    cases hfilter : (m.groups.head?.map Prod.snd).filter fun g => g.closing.toList.isPrefixOf (c :: cs) with
    | some g =>
      obtain ⟨o, around, hopened, rfl⟩ := exists_opened_of_groups (Option.filter_eq_some_iff.mp hfilter).1
      have hstep : m.step (.closing o.grouping.closing) = .ok (m.leave o around) := by
        rw [step, hopened]
        exact if_pos rfl
      dsimp only
      rw [flush_scanner]
      refine (closeGroup_scanner m (c :: cs) hopened).trans ?_
      rw [← Token.length_closing]
      exact (congrArg (fun next => do
        let m' ← Except.mapError ScanHalt.failed next
        return m'.scanner ((c :: cs).drop (Token.closing o.grouping).length)) hstep).symm
    | none =>
      dsimp only
      cases v.closing? (c :: cs) with
      | some g => rfl
      | none =>
        dsimp only
        rcases v.operator? (c :: cs) with _ | ⟨token, slot⟩
        · exact congrArg Except.ok (accumulate_scanner m c cs)
        · dsimp only
          rw [flush_scanner]
          refine (congrArg (· >>= fun p => pure p.2) (pushOperator_scanner m (c :: cs) slot token)).trans ?_
          rw [← Token.length_operator slot]
          rfl

theorem finish_scanner : (m.flushed.scanner []).finish =
    (m.finish.map fun content => content.nodes m.position).mapError .failed := by
  have hfollows : (m.flushed.scanner []).Follows m.flushed := ⟨rfl, rfl⟩
  have hstands := hfollows.standsIn
  have hcurrent : (m.flushed.scanner []).current = innermost m.opened := rfl
  rw [Scanner.finish, hstands.currentGroup_eq, finish]
  cases hopened : m.opened with
  | nil =>
    rw [show m.flushed.opened = [] from hopened] at hstands ⊢
    rw [hopened] at hcurrent
    refine (if_neg (not_not.mpr hcurrent)).trans ?_
    rw [hstands.putGroup_eq]
    exact congrArg (fun position => Except.ok (m.flush.nodes position)) m.position_flushed
  | cons o around =>
    have hopen : (m.flushed.scanner []).current ≠ Expression.rootId := by
      rw [hcurrent, hopened, innermost, Nat.add_right_comm]
      exact Nat.succ_ne_zero _
    rw [show m.flushed.opened = o :: around from hopened]
    exact if_pos hopen

/-- The scanner reads a text to the nodes of what the matcher comes to. -/
theorem scanFrom_scanner {v : Vocabulary} (hv : v.Valid) {stop : Nat} (cs : List Char) (m : Matcher)
    (hgroups : ∀ x ∈ m.groups, x.2 ∈ v.groupings) (hstop : m.position + cs.length = stop) :
    Scanner.scanFrom v (m.scanner cs) = (((v.tokensFrom m.groups m.position cs).map fun tokens =>
      m.complete (Level.ofTokens m.position tokens)).map fun content => content.nodes stop).mapError .failed := by
  induction hlength : cs.length using Nat.strongRecOn generalizing cs m with
  | ind k ih =>
    subst hlength
    rw [Scanner.scanFrom]
    cases cs with
    | nil =>
      change (do let s ← (m.scanner []).flush; s.finish) = _
      rw [flush_scanner, ← m.finish_eq v, ← hstop]
      exact finish_scanner m
    | cons c cs =>
      change (do let next ← (m.scanner (c :: cs)).step v; ite _ _ _) = _
      cases htoken : v.tokenAt (m.groups.head?.map Prod.snd) c cs with
      | error g =>
        rw [step_scanner, Vocabulary.tokensFrom, htoken]
        rfl
      | ok token =>
        have hfinds : v.Finds (m.groups.head?.map Prod.snd) (c :: cs) token := ⟨c, cs, rfl, htoken⟩
        obtain ⟨hin, hbegins⟩ := hfinds.spec
        obtain ⟨m', hstep, hopen, hposition, hcompleted⟩ := exists_step_of_tokenAt htoken hin.within_lexeme
        have hregistered := hopen ▸ Vocabulary.forall_mem_openAfter hgroups hin m.position
        have hpos : 0 < token.length :=
          List.length_pos_iff.mpr (hin.text_ne_nil hv (Vocabulary.mem_groupings_of_head? hgroups))
        have hle : token.length ≤ (c :: cs).length := hbegins.length_le
        have hdrop : (c :: cs).drop token.length = cs.drop (token.length - 1) := List.drop_cons hpos
        have hlength : ((c :: cs).drop token.length).length = (c :: cs).length - token.length := List.length_drop
        have hshorter : ((c :: cs).drop token.length).length < (c :: cs).length := by omega
        have hnext : (m.scanner (c :: cs)).step v = .ok (m'.scanner ((c :: cs).drop token.length)) := by
          rw [step_scanner, htoken]
          exact congrArg (fun next => do
            let m' ← Except.mapError ScanHalt.failed next
            return m'.scanner ((c :: cs).drop token.length)) hstep
        have hread := ih _ hshorter _ m' hregistered (by omega) rfl
        rw [hdrop, hcompleted, ← hdrop] at hread
        rw [hnext]
        exact (if_pos hshorter).trans hread

end Matcher

namespace Parser

variable {T : Type}

/-- Scanning a text yields the numbered view of what it parses as, and fails exactly where parsing does. -/
theorem scan_eq_parse (p : Parser T) (source : String) :
    p.scan source = ((p.parse source).map Expression.nodes).mapError .failed := by
  rw [scan, parse, parseWith]
  cases hcheck : p.vocabulary.check with
  | error e => rfl
  | ok _ =>
    have hvalid := Vocabulary.valid_of_check hcheck
    have hread := Matcher.scanFrom_scanner hvalid source.toList .atStart (List.forall_mem_nil _) rfl
    rw [Matcher.atStart_scanner] at hread
    refine hread.trans ?_
    have htokens : p.vocabulary.tokensFrom Matcher.atStart.groups Matcher.atStart.position source.toList =
        p.vocabulary.tokens source.toList := rfl
    rw [htokens]
    cases p.vocabulary.tokens source.toList with
    | error e => rfl
    | ok tokens =>
      have hposition : Matcher.atStart.position = 0 := rfl
      dsimp only [Except.map]
      rw [hposition, Matcher.complete_atStart, Nat.zero_add, String.length_toList]
      rfl

end Parser

end Bracketed
