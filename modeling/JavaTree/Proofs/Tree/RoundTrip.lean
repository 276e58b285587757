import JavaTree.Proofs.Tree.Validation
import JavaTree.Proofs.Walk.Stack

/-! # Documents and trees

    A document numbered level by level and read back depth first is the same
    document, and so is every tree that a builder can make.  `Arena.Holds`
    joins the two orders: it says what a slot holds, whatever order the slots
    were filled in, and for a node of a tree it is the document of the node
    (`Cursor.holds_iff`).

    The main statement is `Tree.document_round_trip`. -/

namespace JavaTree

namespace Cursor

/-! ## Section 1: A node holds its document -/

theorem index_getElem_children {n : Cursor} {j : Nat} (h : j < n.children.length) :
    n.slot.children[j]? = some n.children[j].index := by
  rw [← Array.getElem?_toList, ← map_index_children, List.getElem?_map,
    List.getElem?_eq_getElem h]
  rfl

theorem holds_toDocument (n : Cursor) : n.tree.arena.Holds n.index n.toDocument := by
  induction n using children_induction with
  | step n ih =>
    refine .node n.slot_eq (kind_toDocument n).symm (attributes_toDocument n).symm ?_ ?_
    · rw [children_toDocument, List.length_map, length_children]
      rfl
    · intro j c e hc he
      rw [children_toDocument, List.getElem?_map, Option.map_eq_some_iff] at he
      obtain ⟨m, hm, rfl⟩ := he
      obtain ⟨hj, rfl⟩ := List.getElem?_eq_some_iff.1 hm
      have hmem : n.children[j] ∈ n.children := List.getElem_mem hj
      rw [index_getElem_children hj] at hc
      obtain rfl := Option.some.inj hc
      have htree : n.children[j].tree = n.tree := tree_of_mem_children hmem
      have hholds := ih _ hmem
      rw [htree] at hholds
      exact hholds

/-- A node holds a document exactly if it is the node's own. -/
theorem holds_iff {n : Cursor} {d : Document} :
    n.tree.arena.Holds n.index d ↔ n.toDocument = d := by
  constructor
  · intro h
    exact n.holds_toDocument.unique h
  · rintro rfl
    exact n.holds_toDocument

/-! ## Section 2: The nodes of a document are those of the tree -/

theorem exists_of_contains_toDocument {n : Cursor} {e : Document} (h : n.toDocument.Contains e) :
    ∃ m, n.Contains m ∧ m.toDocument = e := by
  induction h with
  | refl => exact ⟨n, .refl, rfl⟩
  | @tail x e _ he ih =>
    obtain ⟨m, hm, rfl⟩ := ih
    rw [children_toDocument, List.mem_map] at he
    obtain ⟨c, hc, rfl⟩ := he
    exact ⟨c, Relation.ReflTransGen.tail hm hc, rfl⟩

theorem length_flatMap_preorder (cs : List Cursor) :
    (cs.flatMap preorder).length = total (cs.map fun c => c.preorder.length) := by
  induction cs with
  | nil => rfl
  | cons c cs ih => rw [List.flatMap_cons, List.length_append, ih, List.map_cons, total_cons]

/-- A document has as many nodes as the subtree it is taken of. -/
theorem size_toDocument (n : Cursor) : n.toDocument.size = n.preorder.length := by
  induction n using children_induction with
  | step n ih =>
    have hmap : n.toDocument.children.map Document.size =
        n.children.map fun c => c.preorder.length := by
      rw [children_toDocument, List.map_map]
      exact List.map_congr_left ih
    rw [Document.size_eq, hmap, preorder_eq, List.length_cons, length_flatMap_preorder]
    omega

/-! ## Section 3: What validation guarantees -/

/-- Every node of a linked tree follows the rules. -/
theorem sound_toDocument {n : Cursor} (hl : n.tree.arena.Linked) : n.toDocument.Sound := by
  rw [← Document.violation?_eq_none_iff, ← n.holds_toDocument.violation?_eq hl n.slot_eq]
  obtain ⟨_, -, -, -, hsound⟩ := Arena.of_validate_eq_ok n.tree.valid
  exact hsound n.index n.slot n.slot_eq

end Cursor

namespace Tree

theorem kind_root (t : Tree) : t.root.kind = .compilationUnit := by
  obtain ⟨root, hroot, hkind, -, -⟩ := Arena.of_validate_eq_ok t.valid
  have hslot : t.root.slot = root := Option.some.inj (t.root.slot_eq.symm.trans hroot)
  rw [Cursor.kind, hslot]
  exact hkind

/-! ## Section 4: The round trip -/

/-- The tree of a document has the document as its own and as many nodes. -/
theorem toDocument_of_ofDocument {d : Document} {t : Tree} (h : ofDocument d = .ok t) :
    t.toDocument = d ∧ t.size = d.size := by
  have harena : t.arena = (Builder.ofDocument d).arena := (Builder.finish_eq_ok_iff.1 h).2
  constructor
  · have hholds := Builder.holds_ofDocument (Document.levelOrder_getElem?_zero d)
    rw [← harena] at hholds
    exact Cursor.holds_iff.1 hholds
  · rw [size, harena]
    exact Builder.size_ofDocument d

/-- The document of a built tree is accepted. -/
theorem Built.exists_ofDocument {t : Tree} (h : t.Built) :
    ∃ t', ofDocument t.toDocument = .ok t' := by
  have hl := h.linked
  obtain ⟨b, -, hfinish⟩ := h
  obtain ⟨hle, harena⟩ := Builder.finish_eq_ok_iff.1 hfinish
  -- No node is met twice, so the document is no larger than the tree.
  have hsize : t.toDocument.size ≤ maxSize := by
    rw [toDocument, Cursor.size_toDocument, length_preorder_root hl, size, harena]
    exact hle
  refine (exists_ofDocument_eq_ok_iff hsize).2 ⟨?_, ?_⟩
  · rw [toDocument, Cursor.kind_toDocument]
    exact t.kind_root
  · intro e he
    obtain ⟨m, hm, rfl⟩ := Cursor.exists_of_contains_toDocument he
    have htree : m.tree = t := Cursor.Contains.tree_eq hm
    exact Cursor.sound_toDocument (htree ▸ hl)

/-- Making a tree of a document loses nothing, and neither does making a
    document of a tree: the tree of a document has the same document again and
    the same number of nodes, and the document of every tree that a builder
    was finished to, after any calls with ids it had issued, is accepted and
    comes back unchanged. -/
theorem document_round_trip :
    (∀ (d : Document) (t : Tree), ofDocument d = .ok t → t.toDocument = d ∧ t.size = d.size) ∧
      (∀ (b : Builder) (t : Tree), b.Reachable → b.finish = .ok t →
        ∃ t', ofDocument t.toDocument = .ok t' ∧ t'.toDocument = t.toDocument) := by
  refine ⟨fun d t h => toDocument_of_ofDocument h, ?_⟩
  intro b t hreach hfinish
  have hbuilt : t.Built := ⟨b, hreach, hfinish⟩
  obtain ⟨t', ht'⟩ := hbuilt.exists_ofDocument
  exact ⟨t', ht', (toDocument_of_ofDocument ht').1⟩

theorem document_round_trip_twoClasses :
    Builder.twoClasses.Reachable ∧ Builder.twoClasses.finish = .ok twoClasses ∧
      ∃ t', ofDocument twoClasses.toDocument = .ok t' ∧ t'.toDocument = twoClasses.toDocument ∧
        t'.size = twoClasses.toDocument.size := by
  have hreach := Builder.reachable_twoClasses
  have hfinish := Builder.finish_twoClasses
  obtain ⟨t', ht', hdoc⟩ := document_round_trip.2 _ _ hreach hfinish
  exact ⟨hreach, hfinish, t', ht', hdoc, (document_round_trip.1 _ _ ht').2⟩

end Tree

end JavaTree
