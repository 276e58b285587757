import JavaTree.Tree.Cursor

/-! # Walks

    One generic walker serves every export.  A visitor is asked on the way
    down (`enter`, before the children) and on the way up (`leave`, after
    them); both may change a state and may fail, and `enter` may stop the
    whole walk.

    `Visitor.walk` works off an explicit stack of steps, so tree depth is
    limited by memory only.  `Visitor.recurse` says the same by recursion. -/

namespace JavaTree

/-! ## Section 1: Visitors -/

/-- What to do after a node was entered. -/
inductive Flow where
  /-- Go on with the children. -/
  | descend
  /-- End the whole walk. -/
  | stop
  deriving DecidableEq, Repr

/-- A pair of hooks over a state of type `σ` that may fail with an `ε`.  A
    hook left out does nothing. -/
structure Visitor (ε σ : Type) where
  /-- Called before the children. -/
  enter : Cursor → σ → Except ε Flow × σ := fun _ s => (.ok .descend, s)
  /-- Called after the children. -/
  leave : Cursor → σ → Except ε Unit × σ := fun _ s => (.ok (), s)

/-- A visitor that never fails nor stops, from two state changes. -/
def Visitor.pure {σ : Type} (enter leave : Cursor → σ → σ) : Visitor Empty σ where
  enter n s := (.ok .descend, enter n s)
  leave n s := (.ok (), leave n s)

/-! ## Section 2: The walker -/

/-- A hook call that is still to be made. -/
inductive Step where
  | enter (n : Cursor)
  | leave (n : Cursor)

/-- A bound for the number of hook calls that a step leads to. -/
def Step.cost : Step → Nat
  | .enter n => 2 * n.weight
  | .leave _ => 1

theorem Step.cost_children (n : Cursor) :
    total ((n.children.map Step.enter ++ [Step.leave n]).map Step.cost) + 1 =
      (Step.enter n).cost := by
  have h : ∀ cs : List Cursor,
      total ((cs.map Step.enter).map Step.cost) = 2 * total (cs.map Cursor.weight) := by
    intro cs
    induction cs with
    | nil => rfl
    | cons c cs ih =>
      simp only [List.map_cons, total_cons, ih, Step.cost]
      omega
  simp only [List.map_append, total_append, h, List.map_cons, List.map_nil, total_cons,
    total_nil, Step.cost]
  rw [Cursor.weight_eq n]
  omega

namespace Visitor

variable {ε σ : Type}

/-- Make all pending hook calls, topmost first. -/
def run (v : Visitor ε σ) (steps : List Step) (s : σ) : Except ε Unit × σ :=
  match steps with
  | [] => (.ok (), s)
  | .enter n :: rest =>
    match v.enter n s with
    | (.error e, s) => (.error e, s)
    | (.ok .stop, s) => (.ok (), s)
    -- The children come first, then the way back up.
    | (.ok .descend, s) => v.run (n.children.map .enter ++ [.leave n] ++ rest) s
  | .leave n :: rest =>
    match v.leave n s with
    | (.error e, s) => (.error e, s)
    | (.ok (), s) => v.run rest s
termination_by total (steps.map Step.cost)
decreasing_by
  · have := Step.cost_children n
    rw [List.map_append, total_append, List.map_cons, total_cons]
    omega
  · simp only [List.map_cons, total_cons, Step.cost]
    omega

/-- Walk from a node downwards.  Nodes are entered before and left after
    their children, which come in order. -/
def walk (v : Visitor ε σ) (n : Cursor) (s : σ) : Except ε Unit × σ := v.run [.enter n] s

/-- The final state of a walk. -/
def finalState (v : Visitor ε σ) (n : Cursor) (s : σ) : σ := (v.walk n s).2

/-! ## Section 3: The walk by recursion -/

/-- How the walk of a subtree ended. -/
inductive Ending (ε : Type) where
  | completed
  | stopped
  | failed (e : ε)

/-- Walk a subtree by recursion: enter the node, walk its children in order,
    leave the node.  A stop or a failure ends everything at once. -/
def recurse (v : Visitor ε σ) (n : Cursor) (s : σ) : Ending ε × σ :=
  match v.enter n s with
  | (.error e, s) => (.failed e, s)
  | (.ok .stop, s) => (.stopped, s)
  | (.ok .descend, s) =>
    match n.children.attach.foldl (fun r ⟨c, _⟩ =>
        match r with
        | (Ending.completed, s) => v.recurse c s
        | r => r) (Ending.completed, s) with
    | (.completed, s) =>
      match v.leave n s with
      | (.error e, s) => (.failed e, s)
      | (.ok (), s) => (.completed, s)
    | r => r
termination_by n.rank
decreasing_by
  rename_i h
  exact Cursor.rank_lt_of_mem_children h

/-- The answer of a walk that ended in some way. -/
def Ending.result : Ending ε → Except ε Unit
  | .failed e => .error e
  | _ => .ok ()

end Visitor

/-! ## Section 4: First uses -/

/-- Counts the nodes it enters. -/
def Visitor.counting : Visitor Empty Nat := .pure (fun _ count => count + 1) (fun _ count => count)

/-- The number of nodes from `n` downwards. -/
def Cursor.countNodes (n : Cursor) : Nat := Visitor.counting.finalState n 0

/-- Take the results of `count` children off a stack, in child order. -/
def popResults {α : Type} (count : Nat) (stack : List α) : List α × List α :=
  ((stack.take count).reverse, stack.drop count)

/-- Puts the document of every node it leaves in place of those of the
    node's children. -/
def Visitor.documenting : Visitor Empty (List Document) :=
  .pure (fun _ stack => stack) fun n stack =>
    let (children, rest) := popResults n.childCount stack
    .node n.kind n.attributes children :: rest

/-- The document of the subtree at `n`. -/
def Cursor.toDocument (n : Cursor) : Document :=
  ((Visitor.documenting.finalState n []).head?).getD (.node n.kind .empty [])

/-- The document of the whole tree. -/
def Tree.toDocument (t : Tree) : Document := t.root.toDocument

end JavaTree
