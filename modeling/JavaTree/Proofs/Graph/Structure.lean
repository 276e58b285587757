import JavaTree.Proofs.Graph.Labels
import JavaTree.Proofs.Statistics.Counts
import JavaTree.Text.Decimal

/-! # A graph is exactly its tree

    The graph description of a subtree has one line for each node and one for
    each link, in preorder, and no text of an attribute can add or hide a
    line.  `Graph.placed` lists the nodes below the topmost one with the
    numbers that the walk gives to them and to their parents; the walk writes
    exactly the lines of this list (`walks_drawing`).

    Numbers follow the preorder, so the number of a node's parent is the place
    of the parent (`statements_eq`), and in the other direction the lines of a
    plain graph determine the order and the labels of all nodes
    (`sameLabels_of_lines`).

    The main statement is `Graph.render_is_tree`. -/

namespace JavaTree

namespace Graph

/-! ## Section 1: Nodes and their numbers -/

/-- A node with its number and that of its parent. -/
structure Placed where
  /-- The number of the parent. -/
  parent : Nat
  /-- The number of the node. -/
  id : Nat
  /-- The node. -/
  node : Cursor

/-- The nodes of some subtrees in preorder, numbered from `id` on.  The
    topmost ones are children of the node with the number `parent`. -/
def placed (parent id : Nat) : List Cursor → List Placed
  | [] => []
  | c :: cs =>
    ⟨parent, id, c⟩ :: (placed id (id + 1) c.children ++ placed parent (id + c.weight) cs)
termination_by ns => total (ns.map Cursor.weight)
decreasing_by
  · rw [List.map_cons, total_cons, Cursor.weight_eq c]
    omega
  · rw [List.map_cons, total_cons, Cursor.weight_eq c]
    omega

/-- The lines of a node below the topmost one. -/
def Placed.lines (styled : Bool) (p : Placed) : List String :=
  [nodeLine styled p.id p.node, edgeLine p.parent p.id]

theorem length_flatMap_lines (styled : Bool) (ps : List Placed) :
    (ps.flatMap (Placed.lines styled)).length = 2 * ps.length := by
  induction ps with
  | nil => rfl
  | cons p ps ih =>
    rw [List.flatMap_cons, List.length_append, ih, List.length_cons]
    show 2 + _ = _
    omega

theorem length_placed (parent id : Nat) (ns : List Cursor) :
    (placed parent id ns).length = total (ns.map Cursor.weight) := by
  fun_induction placed parent id ns with
  | case1 => rfl
  | case2 parent id c cs ihchildren ihrest =>
    rw [List.length_cons, List.length_append, ihchildren, ihrest, List.map_cons, total_cons,
      Cursor.weight_eq c]
    omega

/-- Numbers are places in the preorder. -/
theorem map_placed (parent id : Nat) (ns : List Cursor) :
    (placed parent id ns).map (fun p => (p.node, p.id)) =
      (ns.flatMap Cursor.preorder).zipIdx id := by
  fun_induction placed parent id ns with
  | case1 => rfl
  | case2 parent id c cs ihchildren ihrest =>
    have hlength : (c.children.flatMap Cursor.preorder).length + 1 = c.weight := by
      have h := congrArg List.length ihchildren
      rw [List.length_map, length_placed, List.length_zipIdx] at h
      rw [← h, Cursor.weight_eq c]
      omega
    rw [List.map_cons, List.map_append, ihchildren, ihrest, List.flatMap_cons,
      Cursor.preorder_eq c, List.cons_append, List.zipIdx_cons, List.zipIdx_append, ← hlength]
    rw [show id + ((c.children.flatMap Cursor.preorder).length + 1) =
      id + 1 + (c.children.flatMap Cursor.preorder).length from by omega]

/-- A node stands below the node that has its parent's number. -/
theorem parent_placed {parent id : Nat} {ns : List Cursor} {p : Placed}
    (h : p ∈ placed parent id ns) :
    (p.parent = parent ∧ p.node ∈ ns) ∨
      ∃ q ∈ placed parent id ns, q.id = p.parent ∧ p.node ∈ q.node.children := by
  fun_induction placed parent id ns with
  | case1 => cases h
  | case2 parent id c cs ihchildren ihrest =>
    rcases List.mem_cons.1 h with rfl | h
    · exact .inl ⟨rfl, List.mem_cons_self⟩
    rcases List.mem_append.1 h with h | h
    · refine .inr ?_
      rcases ihchildren h with ⟨hparent, hnode⟩ | ⟨q, hq, hid, hnode⟩
      · exact ⟨⟨parent, id, c⟩, List.mem_cons_self, hparent.symm, hnode⟩
      · exact ⟨q, List.mem_cons_of_mem _ (List.mem_append_left _ hq), hid, hnode⟩
    · rcases ihrest h with ⟨hparent, hnode⟩ | ⟨q, hq, hid, hnode⟩
      · exact .inl ⟨hparent, List.mem_cons_of_mem c hnode⟩
      · exact .inr ⟨q, List.mem_cons_of_mem _ (List.mem_append_right _ hq), hid, hnode⟩

/-! ## Section 2: The walk writes the lines -/

/-- Below an open node the walk writes the lines of the subtrees, and closes
    what it opened. -/
theorem walks_drawing {styled : Bool} {ns : List Cursor} {s t : Drawing}
    {r : Visitor.Ending Empty} (h : (visitor styled).Walks ns s r t) {parent : Nat}
    {others : List Nat} (opened : s.opened = parent :: others) :
    t.nextId = s.nextId + total (ns.map Cursor.weight) ∧ t.opened = s.opened ∧
      t.lines = ((placed parent s.nextId ns).flatMap (Placed.lines styled)).reverse ++ s.lines := by
  induction h generalizing parent others with
  | nil s =>
    rw [placed]
    exact ⟨rfl, rfl, rfl⟩
  | enterFailed enter | stopped enter => cases enter
  | endedBelow _ inner ended _ => exact absurd (Visitor.pure_completed inner) ended
  | leaveFailed _ _ leave => cases leave
  | @next n ns s t u w x r enter _ leave _ ih ihrest =>
    cases enter
    cases leave
    obtain ⟨hnext, hopened, hlines⟩ := ih rfl
    -- Leaving the node takes its number off again.
    have hclosed : u.opened.tail = parent :: others := by
      rw [hopened]
      exact opened
    obtain ⟨hnext', hopened', hlines'⟩ := ihrest hclosed
    refine ⟨?_, ?_, ?_⟩
    · rw [hnext', hnext, List.map_cons, total_cons, Cursor.weight_eq n]
      dsimp only
      omega
    · rw [hopened', opened]
      exact hclosed
    · have hid : u.nextId = s.nextId + n.weight := by
        rw [hnext, Cursor.weight_eq n]
        dsimp only
        omega
      rw [hlines', hlines, placed]
      dsimp only
      rw [hid, opened]
      simp [Placed.lines]

/-- The topmost node has a line, and all others have two. -/
theorem statements_eq_placed (styled : Bool) (n : Cursor) :
    statements styled n =
      nodeLine styled 0 n :: (placed 0 1 n.children).flatMap (Placed.lines styled) := by
  have hwalks := Visitor.walks_recurse (visitor styled) n ⟨0, [], []⟩
  rw [statements, Visitor.finalState, hwalks.walk_eq]
  generalize ((visitor styled).recurse n ⟨0, [], []⟩).1 = r at hwalks
  generalize ((visitor styled).recurse n ⟨0, [], []⟩).2 = t at hwalks
  cases hwalks with
  | enterFailed enter | stopped enter => cases enter
  | endedBelow _ inner ended => exact absurd (Visitor.pure_completed inner) ended
  | leaveFailed _ _ leave => cases leave
  | next enter inner leave rest =>
    cases enter
    cases leave
    cases rest
    obtain ⟨-, -, hlines⟩ := walks_drawing inner rfl
    simp [hlines]

end Graph

/-! ## Section 3: Parents by their places -/

/-- The place of the parent of `m` in the preorder of `n`. -/
def Cursor.parentPosition (n m : Cursor) : Nat :=
  n.preorder.findIdx fun p => decide (m.parent?.map (·.index) = some p.index)

/-- The parent of a node is found at its only place. -/
theorem Cursor.parentPosition_eq {n m p : Cursor} (hl : n.tree.arena.Linked) {i : Nat}
    (hi : n.preorder[i]? = some p) (hm : m ∈ p.children) : n.parentPosition m = i := by
  obtain ⟨hlt, rfl⟩ := List.getElem?_eq_some_iff.1 hi
  have htree : ∀ {q : Cursor}, q ∈ n.preorder → q.tree = n.tree :=
    fun hq => Contains.tree_eq (mem_preorder.1 hq)
  have hptree := htree (List.getElem_mem hlt)
  have hparent := parent?_of_mem_children (hptree ▸ hl) hm
  rw [parentPosition, hparent, List.findIdx_eq hlt]
  refine ⟨by simp, ?_⟩
  intro j hj
  have hjlt : j < n.preorder.length := by omega
  -- Two places with one number would hold the same node.
  have hne : n.preorder[i].index ≠ n.preorder[j].index := by
    intro heq
    have hsame := eq_of_index_eq (hptree.trans (htree (List.getElem_mem hjlt)).symm) heq
    have := (nodup_preorder hl).getElem_inj_iff.1 hsame
    omega
  simpa using hne

/-- Every node but the first has its parent in the preorder too. -/
theorem Cursor.getElem?_parentPosition {n m : Cursor} (hl : n.tree.arena.Linked) {i : Nat}
    (hi : n.preorder[i]? = some m) (hpos : 0 < i) :
    ∃ p, m.parent? = some p ∧ n.preorder[n.parentPosition m]? = some p := by
  obtain ⟨hlt, rfl⟩ := List.getElem?_eq_some_iff.1 hi
  have hcontains := mem_preorder.1 (List.getElem_mem hlt)
  rcases Relation.ReflTransGen.cases_tail hcontains with heq | ⟨p, hp, hm⟩
  · -- The first node stands at no other place.
    have hzero : n.preorder[0]? = some n.preorder[i] := by
      rw [heq, preorder_eq]
      rfl
    have hplace := (List.getElem?_inj hlt (nodup_preorder hl)).1 (hi.trans hzero.symm)
    omega
  · obtain ⟨j, hj⟩ := List.getElem?_of_mem (mem_preorder.2 hp)
    have hptree : p.tree = n.tree := Contains.tree_eq hp
    refine ⟨p, parent?_of_mem_children (hptree ▸ hl) hm, ?_⟩
    rw [parentPosition_eq hl hj hm]
    exact hj

namespace Graph

/-- The statements of a graph, node by node in preorder: the declaration of
    the node under its place, and for every node but the first the link from
    the place of its parent. -/
theorem statements_eq {n : Cursor} (hl : n.tree.arena.Linked) (styled : Bool) :
    statements styled n = n.preorder.zipIdx.flatMap fun (m, i) =>
      nodeLine styled i m :: if i = 0 then [] else [edgeLine (n.parentPosition m) i] := by
  have hplaces := map_placed 0 1 n.children
  -- A placed node is found in the preorder under its number.
  have hplace : ∀ q ∈ placed 0 1 n.children, n.preorder[q.id]? = some q.node ∧ q.id ≠ 0 := by
    intro q hq
    have hmem : (q.node, q.id) ∈ (n.children.flatMap Cursor.preorder).zipIdx 1 := by
      rw [← hplaces]
      exact List.mem_map_of_mem hq
    obtain ⟨hle, hget⟩ := List.mk_mem_zipIdx_iff_le_and_getElem?_sub.1 hmem
    refine ⟨?_, by omega⟩
    rw [Cursor.preorder_eq, List.getElem?_cons, if_neg (by omega)]
    exact hget
  rw [statements_eq_placed, Cursor.preorder_eq n, List.zipIdx_cons, List.flatMap_cons, ← hplaces,
    List.flatMap_map]
  show [nodeLine styled 0 n] ++ _ = [nodeLine styled 0 n] ++ _
  congr 1
  apply List.flatMap_congr
  intro q hq
  have hparent : n.parentPosition q.node = q.parent := by
    rcases parent_placed hq with ⟨hparent, hnode⟩ | ⟨p, hp, hid, hnode⟩
    · rw [hparent]
      exact Cursor.parentPosition_eq hl (by rw [Cursor.preorder_eq]; rfl) hnode
    · rw [← hid]
      exact Cursor.parentPosition_eq hl (hplace p hp).1 hnode
  dsimp only
  rw [Placed.lines, if_neg (hplace q hq).2, hparent]

/-! ## Section 4: The text in lines -/

theorem newline_not_mem_lines (styled : Bool) (n : Cursor) :
    ∀ l ∈ lines styled n, '\n' ∉ l.toList := by
  intro l hl
  simp only [lines, statements_eq_placed, List.mem_append, List.mem_cons, List.mem_flatMap,
    List.not_mem_nil, or_false] at hl
  rcases hl with (hl | rfl | ⟨p, -, hl⟩) | rfl
  · exact newline_not_mem_header styled l hl
  · exact newline_not_mem_nodeLine styled 0 n
  · simp only [Placed.lines, List.mem_cons, List.not_mem_nil, or_false] at hl
    rcases hl with rfl | rfl
    · exact newline_not_mem_nodeLine styled p.id p.node
    · exact newline_not_mem_edgeLine p.parent p.id
  · decide

/-- Cutting the text at line breaks gives its lines, and an empty rest behind
    the last line break. -/
theorem pieces_render (styled : Bool) (n : Cursor) :
    Text.pieces '\n' (render styled n).toList = (lines styled n).map String.toList ++ [[]] :=
  Text.pieces_join_lines (newline_not_mem_lines styled n)

/-! ### Kinds of lines -/

/-- The number that a line begins with, behind an indented `n`, and what
    follows it. -/
def numberAndRest? (line : List Char) : Option (List Char × List Char) :=
  if line.take 5 = "    n".toList then
    some ((line.drop 5).takeWhile Decimal.isDigit, (line.drop 5).dropWhile Decimal.isDigit)
  else none

/-- Whether a line declares a node: an indented `n<number> [label="...`. -/
def isNodeLine (line : List Char) : Bool :=
  match numberAndRest? line with
  | some (_, rest) => " [label=\"".toList.isPrefixOf rest
  | none => false

/-- Whether a line links two nodes: an indented `n<number> -> n...`. -/
def isEdgeLine (line : List Char) : Bool :=
  match numberAndRest? line with
  | some (_, rest) => " -> n".toList.isPrefixOf rest
  | none => false

theorem numberAndRest?_append (id : Nat) {c : Char} (hc : Decimal.isDigit c = false)
    (rest : List Char) :
    numberAndRest? ("    n".toList ++ (Nat.toDigits 10 id ++ c :: rest)) =
      some (Nat.toDigits 10 id, c :: rest) := by
  have hdigits : ∀ d ∈ Nat.toDigits 10 id, Decimal.isDigit d := by
    intro d hd
    exact Nat.isDigit_of_mem_toDigits (by decide) (by decide) hd
  rw [numberAndRest?, if_pos (by rfl)]
  show some (List.takeWhile _ (Nat.toDigits 10 id ++ c :: rest),
    List.dropWhile _ (Nat.toDigits 10 id ++ c :: rest)) = _
  rw [List.takeWhile_append_of_pos hdigits, List.dropWhile_append_of_pos hdigits]
  simp [hc]

/-- A declaration names the node by its number and holds the escaped label. -/
theorem toList_nodeLine (styled : Bool) (id : Nat) (n : Cursor) : ∃ rest,
    (nodeLine styled id n).toList = "    n".toList ++ (Nat.toDigits 10 id ++
      (" [label=\"".toList ++ ((Label.escape n.label).toList ++ '"' :: rest))) := by
  cases styled with
  | false => exact ⟨"];".toList, by simp [nodeLine, nodeName]⟩
  | true => exact ⟨_, by simp [nodeLine, nodeName]; rfl⟩

theorem toList_edgeLine (parent id : Nat) :
    (edgeLine parent id).toList = "    n".toList ++ (Nat.toDigits 10 parent ++
      (" -> n".toList ++ (Nat.toDigits 10 id ++ [';']))) := by
  simp [edgeLine, nodeName]

theorem numberAndRest?_nodeLine (styled : Bool) (id : Nat) (n : Cursor) : ∃ rest,
    numberAndRest? (nodeLine styled id n).toList =
      some (Nat.toDigits 10 id, " [label=\"".toList ++ rest) := by
  obtain ⟨rest, hline⟩ := toList_nodeLine styled id n
  rw [hline]
  exact ⟨_, numberAndRest?_append id (by decide) _⟩

theorem numberAndRest?_edgeLine (parent id : Nat) : ∃ rest,
    numberAndRest? (edgeLine parent id).toList =
      some (Nat.toDigits 10 parent, " -> n".toList ++ rest) := by
  rw [toList_edgeLine]
  exact ⟨_, numberAndRest?_append parent (by decide) _⟩

theorem isNodeLine_nodeLine (styled : Bool) (id : Nat) (n : Cursor) :
    isNodeLine (nodeLine styled id n).toList = true ∧
      isEdgeLine (nodeLine styled id n).toList = false := by
  obtain ⟨rest, hline⟩ := numberAndRest?_nodeLine styled id n
  rw [isNodeLine, isEdgeLine, hline]
  exact ⟨by simp, rfl⟩

theorem isEdgeLine_edgeLine (parent id : Nat) :
    isNodeLine (edgeLine parent id).toList = false ∧
      isEdgeLine (edgeLine parent id).toList = true := by
  obtain ⟨rest, hline⟩ := numberAndRest?_edgeLine parent id
  rw [isNodeLine, isEdgeLine, hline]
  exact ⟨rfl, by simp⟩

/-- Every node below the topmost one has one line of each kind. -/
theorem countP_flatMap_lines (styled : Bool) (ps : List Placed) :
    ((ps.flatMap (Placed.lines styled)).map String.toList).countP isNodeLine = ps.length ∧
      ((ps.flatMap (Placed.lines styled)).map String.toList).countP isEdgeLine = ps.length := by
  induction ps with
  | nil => exact ⟨rfl, rfl⟩
  | cons p ps ih =>
    have hnode := isNodeLine_nodeLine styled p.id p.node
    have hedge := isEdgeLine_edgeLine p.parent p.id
    simp only [List.flatMap_cons, Placed.lines, List.map_append, List.map_cons, List.map_nil,
      List.countP_append, List.countP_cons, List.countP_nil, List.length_cons] at ih ⊢
    rw [ih.1, ih.2, hnode.1, hnode.2, hedge.1, hedge.2]
    exact ⟨by simp; omega, by simp; omega⟩

theorem countP_header (styled : Bool) :
    ((header styled).map String.toList).countP isNodeLine = 0 ∧
      ((header styled).map String.toList).countP isEdgeLine = 0 := by
  cases styled <;> decide

/-- There are as many lines that declare nodes as nodes, and one less that
    link them. -/
theorem countP_render (styled : Bool) (n : Cursor) :
    (Text.pieces '\n' (render styled n).toList).countP isNodeLine = n.preorder.length ∧
      (Text.pieces '\n' (render styled n).toList).countP isEdgeLine = n.preorder.length - 1 := by
  have hlength : (placed 0 1 n.children).length + 1 = n.preorder.length := by
    have h := congrArg List.length (map_placed 0 1 n.children)
    rw [List.length_map, List.length_zipIdx] at h
    rw [h, Cursor.preorder_eq, List.length_cons]
  obtain ⟨hnodes, hedges⟩ := countP_flatMap_lines styled (placed 0 1 n.children)
  obtain ⟨htop, htop'⟩ := isNodeLine_nodeLine styled 0 n
  obtain ⟨hheader, hheader'⟩ := countP_header styled
  have hlast : isNodeLine "\x7d".toList = false ∧ isEdgeLine "\x7d".toList = false := by decide
  have hrest : isNodeLine [] = false ∧ isEdgeLine [] = false := by decide
  simp only [pieces_render, lines, statements_eq_placed, List.map_append, List.map_cons,
    List.map_nil, List.countP_append, List.countP_cons, List.countP_nil, hnodes, hedges, htop,
    htop', hheader, hheader', hlast, hrest]
  simp
  omega

/-! ## Section 5: The tree from its lines -/

end Graph

/-- The same positions exist below two nodes, with the same labels there. -/
def Cursor.SameLabels (x y : Cursor) : Prop :=
  ∀ path, (x.descend? path).map label = (y.descend? path).map label

theorem Cursor.sameLabels_of_children {x y : Cursor} (hlabel : x.label = y.label)
    (hchildren : List.Forall₂ SameLabels x.children y.children) : x.SameLabels y := by
  intro path
  cases path with
  | nil => exact congrArg some hlabel
  | cons i rest =>
    rw [descend?, descend?, child?, child?]
    by_cases hi : i < x.children.length
    · have hi' : i < y.children.length := hchildren.length_eq ▸ hi
      rw [List.getElem?_eq_getElem hi, List.getElem?_eq_getElem hi']
      exact hchildren.get hi hi' rest
    · have hi' : ¬i < y.children.length := hchildren.length_eq ▸ hi
      rw [List.getElem?_eq_none (by omega), List.getElem?_eq_none (by omega)]

namespace Graph

theorem label_eq_of_nodeLine {id : Nat} {x y : Cursor}
    (h : nodeLine false id x = nodeLine false id y) : x.label = y.label := by
  apply Label.escape_injective
  simpa [nodeLine] using h

theorem parent_eq_of_edgeLine {p q i j : Nat} (h : edgeLine p i = edgeLine q j) : p = q := by
  obtain ⟨rest, hp⟩ := numberAndRest?_edgeLine p i
  obtain ⟨rest', hq⟩ := numberAndRest?_edgeLine q j
  rw [h, hq, Option.some.injEq, Prod.mk.injEq] at hp
  have hvalue := congrArg (fun digits => Nat.ofDigitChars 10 digits 0) hp.1
  simpa using hvalue.symm

/-- What follows the subtrees below a node is empty or goes on with a child of
    a node with a smaller number. -/
def GoesOnAbove (parent : Nat) (rest : List String) : Prop :=
  rest = [] ∨ ∃ line q id more, q < parent ∧ rest = line :: edgeLine q id :: more

theorem GoesOnAbove.placed_append {parent id : Nat} {rest : List String}
    (h : GoesOnAbove parent rest) (hlt : parent < id) (k : Nat) (ns : List Cursor) :
    GoesOnAbove id ((placed parent k ns).flatMap (Placed.lines false) ++ rest) := by
  cases ns with
  | nil =>
    rw [placed, List.flatMap_nil, List.nil_append]
    rcases h with rfl | ⟨line, q, j, more, hq, rfl⟩
    · exact .inl rfl
    · exact .inr ⟨line, q, j, more, by omega, rfl⟩
  | cons c cs =>
    rw [placed]
    exact .inr ⟨_, parent, k, _, hlt, rfl⟩

/-- The lines of the subtrees below a node tell where the subtrees end, their
    order and all labels. -/
theorem sameLabels_of_lines {parent id : Nat} {xs ys : List Cursor} {rest rest' : List String}
    (hlt : parent < id) (hrest : GoesOnAbove parent rest) (hrest' : GoesOnAbove parent rest')
    (h : (placed parent id xs).flatMap (Placed.lines false) ++ rest =
      (placed parent id ys).flatMap (Placed.lines false) ++ rest') :
    List.Forall₂ Cursor.SameLabels xs ys ∧ rest = rest' := by
  -- The induction follows the first list of subtrees: down into the children
  -- of its first node, then along to the next one.
  fun_induction placed parent id xs generalizing ys rest rest' with
  | case1 parent id =>
    cases ys with
    | nil => exact ⟨.nil, by simpa [placed] using h⟩
    | cons y ys =>
      -- Here a child of `parent` follows, there none does.
      rw [placed] at h
      rcases hrest with rfl | ⟨line, q, j, more, hq, rfl⟩
      · cases h
      · have hedge : q = parent := parent_eq_of_edgeLine (List.cons.inj (List.cons.inj h).2).1
        omega
  | case2 parent id x xs ihchildren ihrest =>
    cases ys with
    | nil =>
      rw [placed] at h
      rcases hrest' with rfl | ⟨line, q, j, more, hq, rfl⟩
      · cases h
      · have hedge : parent = q := parent_eq_of_edgeLine (List.cons.inj (List.cons.inj h).2).1
        omega
    | cons y ys =>
      rw [placed] at h
      simp only [List.flatMap_cons, List.flatMap_append, List.append_assoc] at h
      have hlabel := label_eq_of_nodeLine (List.cons.inj h).1
      have hbelow : (placed id (id + 1) x.children).flatMap (Placed.lines false) ++
          ((placed parent (id + x.weight) xs).flatMap (Placed.lines false) ++ rest) =
          (placed id (id + 1) y.children).flatMap (Placed.lines false) ++
          ((placed parent (id + y.weight) ys).flatMap (Placed.lines false) ++ rest') :=
        (List.cons.inj (List.cons.inj h).2).2
      obtain ⟨hchildren, hnext⟩ := ihchildren (by omega) (hrest.placed_append hlt _ xs)
        (hrest'.placed_append hlt _ ys) hbelow
      -- The subtrees of the two first nodes have the same lines, so the same size.
      have hweight : x.weight = y.weight := by
        rw [hnext] at hbelow
        have hlength := congrArg List.length (List.append_cancel_right hbelow)
        rw [length_flatMap_lines, length_flatMap_lines, length_placed, length_placed] at hlength
        rw [Cursor.weight_eq x, Cursor.weight_eq y]
        omega
      rw [hweight] at hnext ihrest
      obtain ⟨hothers, hfinal⟩ := ihrest (by omega) hrest hrest' hnext
      exact ⟨.cons (Cursor.sameLabels_of_children hlabel hchildren) hothers, hfinal⟩

theorem statements_eq_of_render {x y : Cursor} (h : render false x = render false y) :
    statements false x = statements false y := by
  have hpieces := pieces_render false x
  rw [h, pieces_render, List.append_left_inj] at hpieces
  have hlines : lines false y = lines false x :=
    List.map_injective_iff.2 (fun _ _ => String.toList_inj.1) hpieces
  rw [lines, lines, List.append_left_inj, List.append_right_inj] at hlines
  exact hlines.symm

/-- Two nodes with the same plain graph have the same labels below them, in
    the same places. -/
theorem sameLabels_of_render {x y : Cursor} (h : render false x = render false y) :
    x.SameLabels y := by
  have hstatements := statements_eq_of_render h
  rw [statements_eq_placed, statements_eq_placed] at hstatements
  obtain ⟨htop, hbelow⟩ := List.cons.inj hstatements
  have hnil : GoesOnAbove 0 [] := .inl rfl
  have hbelow' : (placed 0 1 x.children).flatMap (Placed.lines false) ++ [] =
      (placed 0 1 y.children).flatMap (Placed.lines false) ++ [] := by
    rw [hbelow]
  obtain ⟨hchildren, -⟩ := sameLabels_of_lines Nat.zero_lt_one hnil hnil hbelow'
  exact Cursor.sameLabels_of_children (label_eq_of_nodeLine htop) hchildren

/-! ## Section 6: The graph of a subtree -/

/-- The graph description of a node of a built tree, cut at line breaks, is
    the header, then for each node of the subtree in preorder a line that
    declares it under its place and, but for the first, a line that links it
    to the place of its parent, and at last a closing brace.  So there are as
    many declarations as nodes and one link less, whatever the labels hold.
    Two nodes with the same plain description have the same labels at the same
    positions. -/
theorem render_is_tree {n : Cursor} (built : n.tree.Built) (styled : Bool) :
    (Text.pieces '\n' (render styled n).toList =
      (header styled ++ (n.preorder.zipIdx.flatMap fun (m, i) =>
        nodeLine styled i m :: if i = 0 then [] else [edgeLine (n.parentPosition m) i])
          ++ ["\x7d"]).map String.toList ++ [[]]) ∧
      (∀ i m, n.preorder[i]? = some m → 0 < i →
        ∃ p, m.parent? = some p ∧ n.preorder[n.parentPosition m]? = some p) ∧
      (∀ i m, ∃ rest, nodeLine styled i m =
        "    " ++ nodeName i ++ " [label=\"" ++ Label.escape m.label ++ "\"" ++ rest) ∧
      (Text.pieces '\n' (render styled n).toList).countP isNodeLine = n.preorder.length ∧
      (Text.pieces '\n' (render styled n).toList).countP isEdgeLine = n.preorder.length - 1 ∧
      ∀ m, render false n = render false m → n.SameLabels m := by
  have hl := built.linked
  refine ⟨?_, ?_, ?_, (countP_render styled n).1, (countP_render styled n).2, ?_⟩
  · rw [pieces_render, lines, statements_eq hl]
  · intro i m hi hpos
    exact Cursor.getElem?_parentPosition hl hi hpos
  · intro i m
    obtain ⟨rest, hline⟩ := toList_nodeLine styled i m
    refine ⟨String.ofList rest, String.toList_inj.1 ?_⟩
    rw [hline]
    simp [nodeName]
  · intro m h
    exact sameLabels_of_render h

end Graph

/-- A class whose name looks like the end of its declaration and a link. -/
def Builder.misleadingName : Builder :=
  new.add 0 (.type .class) (Attributes.empty.insert Key.name (.text "a\"];\n    n1 -> n0;"))

/-- The tree of `Builder.misleadingName`. -/
def Tree.misleadingName : Tree :=
  ⟨Builder.misleadingName.arena, Builder.misleadingName.ordered, by decide⟩

theorem Tree.built_misleadingName : misleadingName.Built :=
  ⟨Builder.misleadingName, .add (.start _ _) (by decide) _ _,
    Builder.finish_eq_ok_iff.2 ⟨by decide, rfl⟩⟩

/-- The name of the class adds no line to the graph. -/
theorem Graph.render_is_tree_misleadingName :
    Tree.misleadingName.Built ∧
      let ls := Text.pieces '\n' (render false Tree.misleadingName.root).toList
      ls.countP isNodeLine = 2 ∧ ls.countP isEdgeLine = 1 := by
  have hbuilt := Tree.built_misleadingName
  obtain ⟨-, -, -, hnodes, hedges, -⟩ :=
    render_is_tree (n := Tree.misleadingName.root) hbuilt false
  have hlength : Tree.misleadingName.root.preorder.length = 2 :=
    Tree.length_preorder_root hbuilt.linked
  rw [hlength] at hnodes hedges
  exact ⟨hbuilt, hnodes, hedges⟩

end JavaTree
