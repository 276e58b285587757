import JavaTree.Tree.Builder

/-! # Cursors

    A cursor is a node of a tree, seen together with the tree.  It reads the
    node's kind and attributes and moves to its parent and children.

    Child links lead to larger numbers, so `Cursor.rank` falls along them and
    recursion over the children of a cursor ends. -/

namespace JavaTree

/-- A node of a tree. -/
structure Cursor where
  /-- The tree. -/
  tree : Tree
  /-- The number of the node. -/
  index : Nat
  /-- The node exists. -/
  index_lt : index < tree.size

/-- The topmost node. -/
def Tree.root (t : Tree) : Cursor := ⟨t, 0, t.ordered.nonempty⟩

/-- The node with a number. -/
def Tree.node? (t : Tree) (index : Nat) : Option Cursor :=
  if h : index < t.size then some ⟨t, index, h⟩ else none

namespace Cursor

/-- The storage of the node. -/
def slot (n : Cursor) : Slot :=
  have h : n.index < n.tree.arena.slots.size := n.index_lt
  n.tree.arena.slots[n.index]

/-- The kind of the node. -/
def kind (n : Cursor) : Kind := n.slot.kind

/-- The attributes of the node. -/
def attributes (n : Cursor) : Attributes := n.slot.attributes

/-- The number of children. -/
def childCount (n : Cursor) : Nat := n.slot.children.size

/-- The name of the node. -/
def name? (n : Cursor) : Option String := n.attributes.text? Key.name

/-- The source range of the node. -/
def range? (n : Cursor) : Option Span := n.attributes.span? Key.range

theorem slot_eq (n : Cursor) : n.tree.arena.slots[n.index]? = some n.slot :=
  Array.getElem?_eq_getElem n.index_lt

theorem child_above (n : Cursor) {c : Nat} (h : c ∈ n.slot.children) :
    n.index < c ∧ c < n.tree.size :=
  n.tree.ordered.children_above n.index n.slot n.slot_eq c h

theorem parent_below (n : Cursor) {p : Nat} (h : n.slot.parent = some p) : p < n.index :=
  n.tree.ordered.parent_below n.index n.slot n.slot_eq p h

/-- The children, in order. -/
def children (n : Cursor) : List Cursor :=
  n.slot.children.toList.attach.map fun ⟨c, h⟩ =>
    ⟨n.tree, c, (n.child_above (Array.mem_toList_iff.1 h)).2⟩

/-- The parent. -/
def parent? (n : Cursor) : Option Cursor :=
  match h : n.slot.parent with
  | some p => some ⟨n.tree, p, Nat.lt_trans (n.parent_below h) n.index_lt⟩
  | none => none

/-- The child at a position. -/
def child? (n : Cursor) (i : Nat) : Option Cursor := n.children[i]?

/-- The node reached by taking the child at each position in turn. -/
def descend? (n : Cursor) : List Nat → Option Cursor
  | [] => some n
  | i :: rest => (n.child? i).bind (·.descend? rest)

/-! ## Recursion along child links -/

/-- How many numbers there are from the node's own upwards. -/
def rank (n : Cursor) : Nat := n.tree.size - n.index

theorem rank_pos (n : Cursor) : 0 < n.rank := by
  have := n.index_lt
  unfold rank
  omega

theorem rank_lt_of_mem_children {n c : Cursor} (h : c ∈ n.children) : c.rank < n.rank := by
  unfold children at h
  obtain ⟨⟨i, hi⟩, -, rfl⟩ := List.mem_map.1 h
  have := n.child_above (Array.mem_toList_iff.1 hi)
  simp only [rank]
  omega

/-- What passes from the children of a node to the node holds everywhere. -/
@[elab_as_elim]
theorem children_induction {motive : Cursor → Prop}
    (step : ∀ n : Cursor, (∀ c ∈ n.children, motive c) → motive n) (n : Cursor) : motive n := by
  induction h : n.rank using Nat.strongRecOn generalizing n with
  | _ r ih =>
    subst h
    apply step
    intro c hc
    exact ih c.rank (rank_lt_of_mem_children hc) c rfl

theorem length_children (n : Cursor) : n.children.length = n.childCount := by
  simp [children, childCount]

/-- The number of nodes from this one downwards, by recursion. -/
def weight (n : Cursor) : Nat := 1 + total (n.children.attach.map fun ⟨c, _⟩ => c.weight)
termination_by n.rank
decreasing_by
  rename_i h
  exact rank_lt_of_mem_children h

theorem weight_eq (n : Cursor) : n.weight = 1 + total (n.children.map weight) := by
  rw [weight]
  simp

end Cursor

end JavaTree
