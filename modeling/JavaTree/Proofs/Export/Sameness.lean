import JavaTree.Exporter
import JavaTree.Proofs.Print.Structural
import JavaTree.Proofs.Statistics.Counts

/-! # Artifacts depend on the document only

    A node has a number and a parent, and both could leak into what is
    exported.  They do not: two nodes with the same document, of whatever
    trees, have the same artifacts.  The statistics are the one exception, by
    the node itself, which counts among the inner classes if its parent is a
    type declaration.

    The main statement is `Cursor.artifacts_of_same_document`. -/

namespace JavaTree

/-! ## Section 1: What a node shows of its document -/

namespace Cursor

theorem kind_eq {x y : Cursor} (same : x.toDocument = y.toDocument) : x.kind = y.kind := by
  rw [← kind_toDocument, same, kind_toDocument]

theorem attributes_eq {x y : Cursor} (same : x.toDocument = y.toDocument) :
    x.attributes = y.attributes := by
  rw [← attributes_toDocument, same, attributes_toDocument]

theorem map_toDocument_children_eq {x y : Cursor} (same : x.toDocument = y.toDocument) :
    x.children.map toDocument = y.children.map toDocument := by
  rw [← children_toDocument, ← children_toDocument, same]

/-- Results agree along two lists of nodes with the same documents if they
    agree on nodes with the same document. -/
theorem map_congr_document {α : Type} {f : Cursor → α} {xs ys : List Cursor}
    (same : xs.map toDocument = ys.map toDocument)
    (h : ∀ x ∈ xs, ∀ y ∈ ys, x.toDocument = y.toDocument → f x = f y) : xs.map f = ys.map f := by
  induction xs generalizing ys with
  | nil =>
    rw [List.map_nil, eq_comm, List.map_eq_nil_iff] at same
    rw [same]
  | cons x xs ih =>
    obtain ⟨y, ys, rfl, hy, hys⟩ := List.map_eq_cons_iff.1 same.symm
    have htail := ih hys.symm fun a ha b hb =>
      h a (List.mem_cons_of_mem x ha) b (List.mem_cons_of_mem y hb)
    rw [List.map_cons, List.map_cons, htail, h x List.mem_cons_self y List.mem_cons_self hy.symm]

theorem label_eq {x y : Cursor} (same : x.toDocument = y.toDocument) : x.label = y.label := by
  rw [label, label, kind_eq same, attributes_eq same]

end Cursor

/-! ## Section 2: Walks that read documents only -/

namespace Visitor

variable {ε σ : Type} {v : Visitor ε σ}

/-- The hooks read nothing of a node but its document. -/
def ReadsDocument (v : Visitor ε σ) : Prop :=
  ∀ x y : Cursor, x.toDocument = y.toDocument → v.enter x = v.enter y ∧ v.leave x = v.leave y

/-- Nodes with the same documents are walked alike. -/
theorem Walks.congr_document (hv : v.ReadsDocument) {xs : List Cursor} {s t : σ} {r : Ending ε}
    (h : v.Walks xs s r t) {ys : List Cursor}
    (same : xs.map Cursor.toDocument = ys.map Cursor.toDocument) : v.Walks ys s r t := by
  induction h generalizing ys with
  | nil s =>
    rw [List.map_nil, eq_comm, List.map_eq_nil_iff] at same
    rw [same]
    exact .nil s
  | @enterFailed n ns s t e enter =>
    obtain ⟨y, ys, rfl, hy, -⟩ := List.map_eq_cons_iff.1 same.symm
    rw [← (hv y n hy).1] at enter
    exact .enterFailed enter
  | @stopped n ns s t enter =>
    obtain ⟨y, ys, rfl, hy, -⟩ := List.map_eq_cons_iff.1 same.symm
    rw [← (hv y n hy).1] at enter
    exact .stopped enter
  | @endedBelow n ns s t u r enter _ ended ih =>
    obtain ⟨y, ys, rfl, hy, -⟩ := List.map_eq_cons_iff.1 same.symm
    rw [← (hv y n hy).1] at enter
    exact .endedBelow enter (ih (Cursor.map_toDocument_children_eq hy.symm)) ended
  | @leaveFailed n ns s t u w e enter _ leave ih =>
    obtain ⟨y, ys, rfl, hy, -⟩ := List.map_eq_cons_iff.1 same.symm
    rw [← (hv y n hy).1] at enter
    rw [← (hv y n hy).2] at leave
    exact .leaveFailed enter (ih (Cursor.map_toDocument_children_eq hy.symm)) leave
  | @next n ns s t u w x r enter _ leave _ ih ihrest =>
    obtain ⟨y, ys, rfl, hy, hys⟩ := List.map_eq_cons_iff.1 same.symm
    rw [← (hv y n hy).1] at enter
    rw [← (hv y n hy).2] at leave
    exact .next enter (ih (Cursor.map_toDocument_children_eq hy.symm)) leave (ihrest hys.symm)

theorem walk_congr_document (hv : v.ReadsDocument) {x y : Cursor}
    (same : x.toDocument = y.toDocument) (s : σ) : v.walk x s = v.walk y s := by
  have hx := walks_recurse v x s
  have hy : v.Walks [y] s (v.recurse x s).1 (v.recurse x s).2 := by
    apply hx.congr_document hv
    rw [List.map_singleton, same, List.map_singleton]
  rw [hx.walk_eq, hy.walk_eq]

theorem readsDocument_counting : counting.ReadsDocument := by
  intro x y _
  exact ⟨rfl, rfl⟩

end Visitor

theorem Graph.nodeLine_eq {x y : Cursor} (same : x.toDocument = y.toDocument) (styled : Bool)
    (id : Nat) : nodeLine styled id x = nodeLine styled id y := by
  have hrange : x.range? = y.range? := by
    rw [Cursor.range?, Cursor.range?, Cursor.attributes_eq same]
  rw [nodeLine, nodeLine, Cursor.label_eq same, Cursor.kind_eq same, hrange]

theorem Graph.readsDocument_visitor (styled : Bool) : (visitor styled).ReadsDocument := by
  intro x y same
  refine ⟨?_, rfl⟩
  funext d
  simp only [visitor, Visitor.pure, nodeLine_eq same]

/-! ## Section 3: Statistics of nodes with one document -/

namespace Statistics

/-- Whether a child of a linked tree is an inner class is told by its own kind
    and that of its parent. -/
theorem isInnerClass_of_mem_children {n c : Cursor} (hl : n.tree.arena.Linked)
    (hc : c ∈ n.children) : c.isInnerClass = (c.kind.isType && n.kind.isType) := by
  rw [Cursor.isInnerClass, Cursor.parent?_of_mem_children hl hc]
  rfl

/-- Nodes with one document have the same counts apart from their own share
    in the inner classes. -/
theorem get_collect_of_same_document {x y : Cursor} (hx : x.tree.arena.Linked)
    (hy : y.tree.arena.Linked) (same : x.toDocument = y.toDocument) (c : Category) :
    ∃ shared,
      (collect x).get c = shared + (if c = .innerClasses ∧ x.isInnerClass then 1 else 0) ∧
      (collect y).get c = shared + (if c = .innerClasses ∧ y.isInnerClass then 1 else 0) := by
  induction x using Cursor.children_induction generalizing y with
  | step x ih =>
    have hchildren : x.children.map (fun m => (collect m).get c) =
        y.children.map fun m => (collect m).get c := by
      apply Cursor.map_congr_document (Cursor.map_toDocument_children_eq same)
      intro m hm k hk hdoc
      have hmtree : m.tree = x.tree := Cursor.tree_of_mem_children hm
      have hktree : k.tree = y.tree := Cursor.tree_of_mem_children hk
      obtain ⟨shared, hsm, hsk⟩ := ih m hm (hmtree ▸ hx) (hktree ▸ hy) hdoc
      -- Below the two nodes the parents are of the same kind.
      have hinner : m.isInnerClass = k.isInnerClass := by
        rw [isInnerClass_of_mem_children hx hm, isInnerClass_of_mem_children hy hk,
          Cursor.kind_eq hdoc, Cursor.kind_eq same]
      rw [hsm, hsk, hinner]
    refine ⟨x.kind.categories.count c + total (x.children.map fun m => (collect m).get c), ?_, ?_⟩
    · rw [get_collect_eq, count_categories]
      omega
    · rw [get_collect_eq, count_categories, hchildren, Cursor.kind_eq same]
      omega

end Statistics

/-! ## Section 4: All artifacts -/

namespace Cursor

/-- Everything that is exported of two nodes agrees.  Of the counts the inner
    classes are excepted: there each node has one more than what is shared if
    it is itself a type declaration below a type declaration. -/
structure SameArtifacts (x y : Cursor) : Prop where
  /-- The source text under every layout, or the failure to print. -/
  code : ∀ layout, Printer.print layout x = Printer.print layout y
  /-- The graph, with styles and without. -/
  graph : ∀ styled, Graph.render styled x = Graph.render styled y
  /-- The label in graphs. -/
  label : x.label = y.label
  /-- The number of nodes. -/
  nodes : x.countNodes = y.countNodes
  /-- The tree as a document, in every format. -/
  tree : ∀ format, (Exporter.tree format).render x = (Exporter.tree format).render y
  /-- The counts of all other categories. -/
  counts : ∀ c, c ≠ .innerClasses → (Statistics.collect x).get c = (Statistics.collect y).get c
  /-- The count of inner classes. -/
  innerClasses : ∃ shared,
    (Statistics.collect x).get .innerClasses = shared + (if x.isInnerClass then 1 else 0) ∧
    (Statistics.collect y).get .innerClasses = shared + (if y.isInnerClass then 1 else 0)

/-- The two walks that keep results on a stack never take off more than there
    is, take off exactly the results of the children in their order, and leave
    a single entry. -/
structure StackDiscipline (n : Cursor) : Prop where
  /-- Printing takes off the texts of the children. -/
  texts : ∀ unit, (Printer.visitor unit).PopsResults (Printer.text unit) n
  /-- Printing ends with one text. -/
  one_text : ∀ unit stack, (Printer.visitor unit).walk n [] = (.ok (), stack) → ∃ s, stack = [s]
  /-- Documenting takes off the documents of the children. -/
  documents : Visitor.documenting.PopsResults (fun m => .ok m.toDocument) n
  /-- Documenting ends with one document. -/
  one_document : ∃ d, Visitor.documenting.walk n [] = (.ok (), [d])

theorem stackDiscipline (n : Cursor) : n.StackDiscipline where
  texts := fun unit => Printer.popsResults unit n
  one_text := fun _ _ h => Printer.walk_ok h
  documents := by
    have hunfold : (fun m : Cursor => (.ok m.toDocument : Except Empty Document)) =
        fun m => .ok m.unfold := by
      funext m
      rw [toDocument_eq_unfold]
    rw [hunfold]
    exact Visitor.stacks_popsResults Visitor.documenting_stacks combines_unfold n
  one_document := ⟨n.unfold, documenting_walk n⟩

/-- The source text of a node is a structural recursion on its document, and
    two nodes of built trees with the same document have the same artifacts,
    whatever order the trees were built in.  The walks keep their stacks in
    order. -/
theorem artifacts_of_same_document {x y : Cursor} (hx : x.tree.Built) (hy : y.tree.Built)
    (same : x.toDocument = y.toDocument) :
    (∀ layout, Printer.print layout x = x.toDocument.print layout) ∧
      x.SameArtifacts y ∧ x.StackDiscipline ∧ y.StackDiscipline := by
  have hcounts := Statistics.get_collect_of_same_document hx.linked hy.linked same
  refine ⟨fun layout => Printer.print_eq layout x, ?_, x.stackDiscipline, y.stackDiscipline⟩
  exact {
    code := by
      intro layout
      rw [Printer.print_eq, Printer.print_eq, same]
    graph := by
      intro styled
      have hwalk :=
        Visitor.walk_congr_document (Graph.readsDocument_visitor styled) same ⟨0, [], []⟩
      rw [Graph.render, Graph.render, Graph.lines, Graph.lines, Graph.statements, Graph.statements,
        Visitor.finalState, Visitor.finalState, hwalk]
    label := label_eq same
    nodes := by
      rw [countNodes, countNodes, Visitor.finalState, Visitor.finalState,
        Visitor.walk_congr_document Visitor.readsDocument_counting same]
    tree := by
      intro format
      simp only [Exporter.tree, same]
    counts := by
      intro c hc
      obtain ⟨shared, hsx, hsy⟩ := hcounts c
      simp only [hc, false_and, if_false] at hsx hsy
      rw [hsx, hsy]
    innerClasses := by
      obtain ⟨shared, hsx, hsy⟩ := hcounts .innerClasses
      simp only [true_and] at hsx hsy
      exact ⟨shared, hsx, hsy⟩ }

/-- The inner class and the second class of `Tree.twoClasses` have the same
    document. -/
theorem artifacts_of_same_document_twoClasses :
    let inner : Cursor := ⟨Tree.twoClasses, 2, by decide⟩
    let second : Cursor := ⟨Tree.twoClasses, 3, by decide⟩
    inner.tree.Built ∧ inner.toDocument = second.toDocument ∧ inner.isInnerClass = true ∧
      second.isInnerClass = false ∧ inner.SameArtifacts second := by
  intro inner second
  have hbuilt : inner.tree.Built := Tree.built_twoClasses
  have hsame : inner.toDocument = second.toDocument := by
    rw [toDocument_eq, toDocument_eq second]
    rfl
  have hartifacts := artifacts_of_same_document (y := second) hbuilt hbuilt hsame
  exact ⟨hbuilt, hsame, by decide, by decide, hartifacts.2.1⟩

end Cursor

end JavaTree
