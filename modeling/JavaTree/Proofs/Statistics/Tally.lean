import JavaTree.Proofs.Export.Sameness
import Mathlib.Data.Set.Card

/-! # What the categories count

    `Category.covers` is the table of the report read row by row: for each
    category the nodes that belong to it.  The walk works the other way
    round, from a node to its categories, and keeps all counts in one vector.
    The two agree node by node (`Cursor.count_categories_eq`), so that a count
    is the number of covered nodes of the subtree.

    Seen from its document alone, a count is a sum over siblings
    (`Document.counted`), and no order of siblings makes a difference to it
    (`Document.Reordered.counted_eq`).

    The main statement is `Statistics.collect_counts_covered`. -/

namespace JavaTree

/-! ## Section 1: The table of the report -/

/-- Whether a node belongs to a category. -/
def Category.covers : Category → Cursor → Bool
  | .classes, n => n.kind = .type .class || n.kind = .type .interface
  | .methods, n => n.kind = .member .method
  | .statements, n => n.kind.isStatement
  | .imports, n => n.kind = .importDecl
  | .fields, n => n.kind = .member .field
  | .constructors, n => n.kind = .member .constructor
  | .interfaces, n => n.kind = .type .interface
  | .enums, n => n.kind = .type .enum
  | .annotations, n => n.kind = .type .annotationType
  | .comments, n => n.kind.isComment
  | .ifStatements, n => n.kind = .statement .conditional
  | .forLoops, n => n.kind = .statement .for
  | .whileLoops, n => n.kind = .statement .while
  | .tryCatchBlocks, n => n.kind = .statement .tryCatch
  | .switchStatements, n => n.kind = .statement .switch
  | .lambdaExpressions, n => n.kind = .expression .lambda
  | .methodReferences, n => n.kind = .expression .methodReference
  | .assertStatements, n => n.kind = .statement .assert
  | .synchronizedBlocks, n => n.kind = .statement .synchronized
  | .throwStatements, n => n.kind = .statement .throw
  | .generics, n => n.kind = .typeParameter
  | .annotationUses, n => n.kind = .expression .annotationUse
  -- The parent counts wherever it is, also above the subtree that is reported on.
  | .innerClasses, n => n.kind.isType && n.parent?.any (·.kind.isType)

namespace Cursor

theorem isInnerClass_eq_any (n : Cursor) :
    n.isInnerClass = (n.kind.isType && n.parent?.any (·.kind.isType)) := by
  rw [isInnerClass]
  cases n.parent? <;> rfl

/-- A node counts once in each category that it belongs to. -/
theorem count_categories_eq (n : Cursor) (c : Category) :
    n.categories.count c = (c.covers n).toNat := by
  rw [Statistics.count_categories]
  cases c with
  | innerClasses =>
    -- No kind is an inner class by itself.
    have hkind : ∀ k ∈ Kind.all, k.categories.count .innerClasses = 0 := by decide
    rw [hkind n.kind n.kind.mem_all, isInnerClass_eq_any, Category.covers]
    cases n.kind.isType && n.parent?.any (·.kind.isType) <;> rfl
  | _ =>
    simp only [reduceCtorEq, false_and, if_false, Nat.add_zero, Category.covers]
    generalize n.kind = k
    have hk := k.mem_all
    revert k
    decide

end Cursor

/-! ## Section 2: Counts of documents -/

/-- The sum of a list does not depend on its order. -/
theorem total_eq_of_perm {ns ms : List Nat} (h : ns.Perm ms) : total ns = total ms := by
  induction h with
  | nil => rfl
  | cons n _ ih => rw [total_cons, total_cons, ih]
  | swap n m ns =>
    simp only [total_cons]
    omega
  | trans _ _ ih ih' => rw [ih, ih']

namespace Document

mutual

/-- How often a category occurs in a document that stands below a type
    declaration or not. -/
def counted (c : Category) (inType : Bool) : Document → Nat
  | .node k _ cs =>
    k.categories.count c + (if c = .innerClasses ∧ (k.isType && inType) then 1 else 0)
      + countedAll c k.isType cs

/-- How often a category occurs in siblings. -/
def countedAll (c : Category) (inType : Bool) : List Document → Nat
  | [] => 0
  | d :: ds => d.counted c inType + countedAll c inType ds

end

theorem countedAll_eq_total (c : Category) (inType : Bool) (ds : List Document) :
    countedAll c inType ds = total (ds.map (counted c inType)) := by
  induction ds with
  | nil => rfl
  | cons d ds ih => rw [countedAll, ih, List.map_cons, total_cons]

/-- The documents differ in the order of siblings only, at any depth. -/
inductive Reordered : Document → Document → Prop where
  /-- The children of the topmost node change places. -/
  | permute {k : Kind} {a : Attributes} {cs ds : List Document} (perm : cs.Perm ds) :
      Reordered (.node k a cs) (.node k a ds)
  /-- Somewhere below siblings change places. -/
  | inside {k : Kind} {a : Attributes} {before after : List Document} {d e : Document}
      (child : Reordered d e) :
      Reordered (.node k a (before ++ d :: after)) (.node k a (before ++ e :: after))
  /-- One change after the other. -/
  | trans {d e f : Document} (first : Reordered d e) (second : Reordered e f) : Reordered d f

/-- A change of places does not change a count. -/
theorem Reordered.counted_eq {d e : Document} (h : d.Reordered e) (c : Category) (inType : Bool) :
    d.counted c inType = e.counted c inType := by
  induction h generalizing inType with
  | permute perm =>
    rw [counted, counted, countedAll_eq_total, countedAll_eq_total, total_eq_of_perm (perm.map _)]
  | inside _ ih =>
    simp only [counted, countedAll_eq_total, List.map_append, List.map_cons, total_append,
      total_cons, ih]
  | trans _ _ ih ih' => exact (ih inType).trans (ih' inType)

end Document

namespace Statistics

/-- The counts of a node are those of its document and of where it stands. -/
theorem get_collect_eq_counted {n : Cursor} (hl : n.tree.arena.Linked) (c : Category)
    {inType : Bool} (hinner : n.isInnerClass = (n.kind.isType && inType)) :
    (collect n).get c = n.toDocument.counted c inType := by
  induction n using Cursor.children_induction generalizing inType with
  | step n ih =>
    have hchildren : n.children.map (fun m => (collect m).get c) =
        (n.children.map Cursor.toDocument).map (Document.counted c n.kind.isType) := by
      rw [List.map_map]
      apply List.map_congr_left
      intro m hm
      have htree : m.tree = n.tree := Cursor.tree_of_mem_children hm
      exact ih m hm (htree ▸ hl) (isInnerClass_of_mem_children hl hm)
    rw [get_collect_eq, count_categories, hchildren, Cursor.toDocument_eq, Document.counted,
      Document.countedAll_eq_total, hinner]

/-! ## Section 3: Counts of nodes -/

theorem get_collect_eq_countP (n : Cursor) (c : Category) :
    (collect n).get c = n.preorder.countP c.covers := by
  rw [get_collect]
  induction n.preorder with
  | nil => rfl
  | cons m ms ih =>
    rw [List.map_cons, total_cons, ih, Cursor.count_categories_eq, List.countP_cons, Nat.add_comm]
    cases c.covers m <;> rfl

/-- On its way down a walk meets every node once, so it counts the covered
    nodes of the subtree. -/
theorem get_collect_eq_ncard {n : Cursor} (hl : n.tree.arena.Linked) (c : Category) :
    (collect n).get c = {m : Cursor | n.Contains m ∧ c.covers m}.ncard := by
  let covered : Finset Cursor := ⟨n.preorder.filter c.covers, (Cursor.nodup_preorder hl).filter _⟩
  have hcovered : {m : Cursor | n.Contains m ∧ c.covers m} = covered := by
    ext m
    show n.Contains m ∧ c.covers m ↔ m ∈ n.preorder.filter c.covers
    rw [List.mem_filter, Cursor.mem_preorder]
  rw [hcovered, Set.ncard_coe_finset, get_collect_eq_countP, List.countP_eq_length_filter]
  rfl

/-- No count is larger than the tree. -/
theorem get_collect_le_size {n : Cursor} (hl : n.tree.arena.Linked) (c : Category) :
    (collect n).get c ≤ n.tree.size := by
  have hsub : n.preorder ⊆ n.tree.root.preorder := by
    intro m hm
    rw [Cursor.mem_preorder] at hm ⊢
    exact n.tree.root_contains hl m hm.tree_eq
  calc (collect n).get c
      = n.preorder.countP c.covers := get_collect_eq_countP n c
    _ ≤ n.preorder.length := List.countP_le_length
    _ ≤ n.tree.root.preorder.length :=
        ((Cursor.nodup_preorder hl).subperm hsub).length_le
    _ = n.tree.size := Tree.length_preorder_root hl

theorem isInnerClass_eq_and (n : Cursor) : n.isInnerClass = (n.kind.isType && n.isInnerClass) := by
  rw [Cursor.isInnerClass, ← Bool.and_assoc, Bool.and_self]

/-- The counts of a subtree are the numbers of the nodes in it that the report
    assigns to each category, none of them too large for 64 bits.  They are
    additive, and the order of siblings, at any depth, makes no difference. -/
theorem collect_counts_covered {r : Cursor} (hbuilt : r.tree.Built) (c : Category) :
    (collect r).get c = {m : Cursor | r.Contains m ∧ c.covers m}.ncard ∧
      (collect r).get c =
        (c.covers r).toNat + total (r.children.map fun m => (collect m).get c) ∧
      (∀ n : Cursor, n.tree.Built → r.toDocument.Reordered n.toDocument →
        r.isInnerClass = n.isInnerClass → (collect n).get c = (collect r).get c) ∧
      (collect r).get c < 2 ^ 64 := by
  have hl := hbuilt.linked
  refine ⟨get_collect_eq_ncard hl c, ?_, ?_, ?_⟩
  · rw [get_collect_eq, Cursor.count_categories_eq]
  · intro n hn hreordered hinner
    have hcounted := get_collect_eq_counted hn.linked c (isInnerClass_eq_and n)
    rw [hcounted, get_collect_eq_counted hl c (isInnerClass_eq_and r), hinner]
    exact (hreordered.counted_eq c _).symm
  · obtain ⟨b, -, hfinish⟩ := hbuilt
    obtain ⟨hsize, harena⟩ := Builder.finish_eq_ok_iff.1 hfinish
    have hle := get_collect_le_size hl c
    rw [Tree.size, harena] at hle
    exact Nat.lt_of_le_of_lt (hle.trans hsize) (by decide)

/-- Two classes, the first one with a class inside: all three are classes,
    and the one inside is counted once more. -/
theorem collect_counts_covered_twoClasses :
    Tree.twoClasses.root.tree.Built ∧
      {m : Cursor | Tree.twoClasses.root.Contains m ∧ Category.classes.covers m}.ncard = 3 ∧
      {m : Cursor | Tree.twoClasses.root.Contains m ∧
        Category.innerClasses.covers m}.ncard = 1 := by
  have hbuilt : Tree.twoClasses.root.tree.Built := Tree.built_twoClasses
  refine ⟨hbuilt, ?_, ?_⟩
  · rw [← (collect_counts_covered hbuilt .classes).1]
    decide +kernel
  · rw [← (collect_counts_covered hbuilt .innerClasses).1]
    decide +kernel

end Statistics

end JavaTree
