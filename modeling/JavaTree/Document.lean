import JavaTree.Attribute
import JavaTree.Kind

/-! # Documents

    A document is the nested form of a tree: a kind, an attribute map and the
    documents of the children.  It is what the two text formats carry.

    `Document.height` is the number of levels by recursion and
    `Document.depth` finds the same number with a work list, so that a deep
    document needs no deep call stack. -/

namespace JavaTree

/-! ## Section 1: Totals -/

/-- The sum of a list of numbers. -/
def total : List Nat → Nat
  | [] => 0
  | n :: ns => n + total ns

@[simp] theorem total_nil : total [] = 0 := rfl

@[simp] theorem total_cons (n : Nat) (ns : List Nat) : total (n :: ns) = n + total ns := rfl

@[simp] theorem total_append (ns ms : List Nat) : total (ns ++ ms) = total ns + total ms := by
  induction ns with
  | nil => simp
  | cons n ns ih =>
    simp only [List.cons_append, total_cons, ih]
    omega

/-! ## Section 2: The type -/

/-- A node together with everything below it. -/
inductive Document where
  | node (kind : Kind) (attributes : Attributes) (children : List Document)

namespace Document

/-- The kind of the topmost node. -/
def kind : Document → Kind
  | .node k _ _ => k

/-- The attributes of the topmost node. -/
def attributes : Document → Attributes
  | .node _ a _ => a

/-- The documents below the topmost node, in order. -/
def children : Document → List Document
  | .node _ _ cs => cs

@[simp] theorem kind_node (k : Kind) (a : Attributes) (cs : List Document) :
    (node k a cs).kind = k := rfl

@[simp] theorem attributes_node (k : Kind) (a : Attributes) (cs : List Document) :
    (node k a cs).attributes = a := rfl

@[simp] theorem children_node (k : Kind) (a : Attributes) (cs : List Document) :
    (node k a cs).children = cs := rfl

instance : Inhabited Document := ⟨.node .compilationUnit .empty []⟩

/-! ### Equality is decidable -/

mutual

/-- Compare two documents. -/
def decEq : (a b : Document) → Decidable (a = b)
  | .node k a cs, .node k' a' cs' =>
    if hk : k = k' then
      if ha : a = a' then
        match decEqAll cs cs' with
        | .isTrue h => .isTrue (by rw [hk, ha, h])
        | .isFalse h => .isFalse (by intro e; injection e; contradiction)
      else .isFalse (by intro e; injection e; contradiction)
    else .isFalse (by intro e; injection e; contradiction)

/-- Compare two lists of documents. -/
def decEqAll : (as bs : List Document) → Decidable (as = bs)
  | [], [] => .isTrue rfl
  | [], _ :: _ => .isFalse (by simp)
  | _ :: _, [] => .isFalse (by simp)
  | a :: as, b :: bs =>
    match decEq a b, decEqAll as bs with
    | .isTrue h, .isTrue h' => .isTrue (by rw [h, h'])
    | .isFalse h, _ => .isFalse (by simp [h])
    | _, .isFalse h => .isFalse (by simp [h])

end

instance : DecidableEq Document := decEq

/-! ## Section 3: Size and height -/

mutual

/-- The number of nodes. -/
def size : Document → Nat
  | .node _ _ cs => 1 + sizeAll cs

/-- The number of nodes of a list of documents. -/
def sizeAll : List Document → Nat
  | [] => 0
  | c :: cs => c.size + sizeAll cs

end

theorem sizeAll_eq_total (cs : List Document) : sizeAll cs = total (cs.map size) := by
  induction cs with
  | nil => rfl
  | cons c cs ih => simp [sizeAll, ih]

theorem size_eq (d : Document) : d.size = 1 + total (d.children.map size) := by
  cases d
  simp [size, sizeAll_eq_total]

mutual

/-- The number of levels: one more than the highest child. -/
def height : Document → Nat
  | .node _ _ cs => 1 + heightAll cs

/-- The greatest height in a list of documents, zero if it is empty. -/
def heightAll : List Document → Nat
  | [] => 0
  | c :: cs => max c.height (heightAll cs)

end

/-- The deepest level among the pending documents and all that is below
    them, each pending document being given with its own level. -/
def deepestLevel (pending : List (Document × Nat)) (deepest : Nat) : Nat :=
  match pending with
  | [] => deepest
  | (d, level) :: rest =>
    deepestLevel (d.children.map (·, level + 1) ++ rest) (max deepest level)
termination_by total (pending.map (·.1.size))
decreasing_by
  have h : List.map ((fun x => x.1.size) ∘ fun x => (x, level + 1)) d.children
      = d.children.map size := by
    apply List.map_congr_left
    intros
    rfl
  simp only [List.map_append, List.map_map, h, total_append, List.map_cons, total_cons,
    size_eq d]
  omega

/-- The number of levels, counting the topmost node. -/
def depth (d : Document) : Nat := deepestLevel [(d, 1)] 0

end Document

end JavaTree
