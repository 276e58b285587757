import JavaTree.Proofs.Tree.Links
import JavaTree.Proofs.Walk.Recursion
import JavaTree.Statistics

/-! # Counts of a subtree

    The counts that a walk collects are sums over the nodes of the subtree
    (`Statistics.get_collect`), and so those of a node are its own share and
    those of its children (`Statistics.get_collect_eq`). -/

namespace JavaTree

/-! ## Section 1: Pure visitors -/

/-- A visitor that never fails nor stops completes every walk. -/
theorem Visitor.pure_completed {σ : Type} {enter leave : Cursor → σ → σ} {ns : List Cursor}
    {s t : σ} {r : Visitor.Ending Empty} (h : (Visitor.pure enter leave).Walks ns s r t) :
    r = .completed := by
  induction h with
  | nil s => rfl
  | enterFailed henter | stopped henter => cases henter
  | endedBelow _ _ ended ih => exact absurd ih ended
  | leaveFailed _ _ hleave => cases hleave
  | next _ _ _ _ _ ihrest => exact ihrest

namespace Statistics

/-! ## Section 2: Counting -/

theorem get_bump (s : Statistics) (c d : Category) :
    (s.bump c).get d = s.get d + if d = c then 1 else 0 := by
  by_cases h : d = c
  · subst h
    simp [bump, get]
  · have hindex : c.index.val ≠ d.index.val := by
      intro heq
      exact h (Category.index_injective (Fin.ext heq)).symm
    simp [bump, get, h, Vector.getElem_set_ne _ _ hindex]

theorem get_foldl_bump (cs : List Category) (s : Statistics) (d : Category) :
    (cs.foldl bump s).get d = s.get d + cs.count d := by
  induction cs generalizing s with
  | nil => rfl
  | cons c cs ih =>
    rw [List.foldl_cons, ih, get_bump, List.count_cons]
    by_cases h : d = c
    · simp [h]
      omega
    · simp [h, Ne.symm h]

theorem get_zero (c : Category) : zero.get c = 0 := by
  simp [zero, get]

/-- A walk adds the share of every node below to every count. -/
theorem walks_get {ns : List Cursor} {s t : Statistics} {r : Visitor.Ending Empty}
    (h : visitor.Walks ns s r t) (c : Category) :
    t.get c = s.get c + total ((ns.flatMap Cursor.preorder).map (·.categories.count c)) := by
  induction h with
  | nil s => rfl
  | enterFailed enter | stopped enter => cases enter
  | endedBelow _ inner ended _ => exact absurd (Visitor.pure_completed inner) ended
  | leaveFailed _ _ leave => cases leave
  | @next n ns s t u w x r enter _ leave _ ih ihrest =>
    -- The node is counted on the way down, and nothing on the way up.
    cases enter
    cases leave
    rw [ihrest, ih, get_foldl_bump, List.flatMap_cons, Cursor.preorder_eq, List.map_append,
      total_append, List.map_cons, total_cons]
    omega

/-- A count is the sum of the shares of all nodes of the subtree. -/
theorem get_collect (n : Cursor) (c : Category) :
    (collect n).get c = total (n.preorder.map (·.categories.count c)) := by
  have hwalks := Visitor.walks_recurse visitor n zero
  have hget := walks_get hwalks c
  rw [get_zero, Nat.zero_add, List.flatMap_singleton] at hget
  rw [collect, Visitor.finalState, hwalks.walk_eq]
  exact hget

theorem total_map_flatMap_preorder (f : Cursor → Nat) (ns : List Cursor) :
    total ((ns.flatMap Cursor.preorder).map f) =
      total (ns.map fun n => total (n.preorder.map f)) := by
  induction ns with
  | nil => rfl
  | cons n ns ih =>
    rw [List.flatMap_cons, List.map_append, total_append, ih, List.map_cons, total_cons]

/-- Counts are additive: the share of the node and the counts of its children. -/
theorem get_collect_eq (n : Cursor) (c : Category) :
    (collect n).get c =
      n.categories.count c + total (n.children.map fun m => (collect m).get c) := by
  simp only [get_collect]
  rw [← total_map_flatMap_preorder, Cursor.preorder_eq, List.map_cons, total_cons]

/-- The share of a node: its kind's, and one more among the inner classes if
    it is one. -/
theorem count_categories (n : Cursor) (c : Category) :
    n.categories.count c =
      n.kind.categories.count c + if c = .innerClasses ∧ n.isInnerClass then 1 else 0 := by
  unfold Cursor.categories
  by_cases hinner : n.isInnerClass = true
  · rw [if_pos hinner, List.count_append]
    by_cases hc : c = .innerClasses
    · simp [hc, hinner]
    · simp [hc, Ne.symm hc]
  · rw [if_neg hinner]
    simp [hinner]

end Statistics

end JavaTree
