import JavaTree.Document
import JavaTree.Tree.Arena

/-! # Building trees

    A builder collects nodes one by one; the number of a new node is the
    number of nodes before it.  The tree becomes visible only when the
    builder is finished, which validates it.

    `Tree.ofDocument` numbers the nodes of a document level by level. -/

namespace JavaTree

/-! ## Section 1: Builders -/

/-- A tree under construction. -/
structure Builder where
  /-- The nodes so far. -/
  arena : Arena
  /-- Children come after their parents. -/
  ordered : arena.Ordered

namespace Builder

/-- The number of nodes so far, which are the ids issued. -/
def size (b : Builder) : Nat := b.arena.size

/-- Start with a root of any kind; only a compilation unit can be finished. -/
def withRoot (kind : Kind) (attributes : Attributes) : Builder :=
  ⟨.single kind attributes, Arena.ordered_single kind attributes⟩

/-- Start with an empty compilation unit. -/
def new : Builder := withRoot .compilationUnit .empty

instance : Inhabited Builder := ⟨new⟩

/-- Add a node at the end of the children of `parent`; its id is the size
    before.  Under an id that was not issued nothing is added. -/
def add (b : Builder) (parent : Nat) (kind : Kind) (attributes : Attributes) : Builder :=
  if h : parent < b.arena.size then
    ⟨b.arena.add parent kind attributes, Arena.ordered_add b.ordered h kind attributes⟩
  else b

/-- Put an attribute at a node. -/
def setAttribute (b : Builder) (id : Nat) (key : String) (value : AttrValue) : Builder :=
  ⟨b.arena.setAttribute id key value, Arena.ordered_setAttribute b.ordered id key value⟩

theorem size_add (b : Builder) {parent : Nat} (h : parent < b.size) (kind : Kind)
    (attributes : Attributes) : (b.add parent kind attributes).size = b.size + 1 := by
  unfold size at h ⊢
  simp [add, h]

end Builder

/-! ## Section 2: Trees -/

/-- A validated tree. -/
structure Tree where
  /-- The nodes. -/
  arena : Arena
  /-- Children come after their parents. -/
  ordered : arena.Ordered
  /-- Every rule holds. -/
  valid : arena.validate = .ok ()

/-- The number of nodes. -/
def Tree.size (t : Tree) : Nat := t.arena.size

/-- The largest number of nodes of a tree. -/
def Tree.maxSize : Nat := Nat.pow 2 32 - 1

/-- Validate the nodes and make them a tree. -/
def Builder.finish (b : Builder) : Except TreeError Tree :=
  if Tree.maxSize < b.size then .error (.tooLarge b.size)
  else
    match h : b.arena.validate with
    | .error e => .error e
    | .ok () => .ok ⟨b.arena, b.ordered, h⟩

/-! ## Section 3: From documents -/

namespace Builder

/-- Add the topmost nodes of documents below `parent`.  Each document is
    returned with the id of its node. -/
def addAll (b : Builder) (parent : Nat) : List Document → Builder × List (Nat × Document)
  | [] => (b, [])
  | d :: rest =>
    let id := b.size
    let (b, pending) := (b.add parent d.kind d.attributes).addAll parent rest
    (b, (id, d) :: pending)

theorem map_snd_addAll (b : Builder) (parent : Nat) (ds : List Document) :
    (b.addAll parent ds).2.map (·.2) = ds := by
  induction ds generalizing b with
  | nil => rfl
  | cons d rest ih => simp [addAll, ih]

/-- Add everything below the pending nodes, nearest levels first. -/
def addBelow (b : Builder) (pending : List (Nat × Document)) : Builder :=
  match pending with
  | [] => b
  | (id, d) :: rest =>
    (b.addAll id d.children).1.addBelow (rest ++ (b.addAll id d.children).2)
termination_by total (pending.map (·.2.size))
decreasing_by
  have h : (b.addAll id d.children).2.map (·.2.size) = d.children.map Document.size := by
    conv => rhs; rw [← map_snd_addAll b id d.children]
    rw [List.map_map]
    rfl
  simp only [List.map_append, total_append, h, List.map_cons, total_cons,
    Document.size_eq d]
  omega

/-- The builder that holds all nodes of a document, numbered level by level. -/
def ofDocument (d : Document) : Builder :=
  (withRoot d.kind d.attributes).addBelow [(0, d)]

end Builder

/-- Build and validate the tree of a document. -/
def Tree.ofDocument (d : Document) : Except TreeError Tree := (Builder.ofDocument d).finish

end JavaTree
