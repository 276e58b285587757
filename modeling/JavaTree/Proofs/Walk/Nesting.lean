import JavaTree.Proofs.Tree.Links
import JavaTree.Proofs.Walk.Recursion

/-! # What a walk visits

    The order of the hook calls of a walk that nothing ends early:
    `Cursor.steps` lists them by recursion, `Step.Nested` says that every way
    up closes the innermost open way down, and in a built tree every node of
    the subtree is entered once and left once.

    The main statement is `Visitor.walk_refines_recursion`. -/

namespace JavaTree

/-! ## Section 1: Nested calls -/

namespace Step

/-- The node that a call enters. -/
def entered? : Step → Option Cursor
  | .enter n => some n
  | .leave _ => none

/-- The node that a call leaves. -/
def left? : Step → Option Cursor
  | .enter _ => none
  | .leave n => some n

/-- The nodes entered by some calls, in order. -/
def entered (steps : List Step) : List Cursor := steps.filterMap entered?

/-- The nodes left by some calls, in order. -/
def left (steps : List Step) : List Cursor := steps.filterMap left?

/-- Calls are properly nested: a node that is entered is left again, and what
    lies in between is properly nested too. -/
inductive Nested : List Step → Prop where
  | nil : Nested []
  | node (n : Cursor) {inner rest : List Step} (hinner : Nested inner) (hrest : Nested rest) :
      Nested (.enter n :: (inner ++ .leave n :: rest))

theorem entered_append (l₁ l₂ : List Step) : entered (l₁ ++ l₂) = entered l₁ ++ entered l₂ :=
  List.filterMap_append

theorem left_append (l₁ l₂ : List Step) : left (l₁ ++ l₂) = left l₁ ++ left l₂ :=
  List.filterMap_append

theorem Nested.append {l₁ l₂ : List Step} (h₁ : Nested l₁) (h₂ : Nested l₂) :
    Nested (l₁ ++ l₂) := by
  induction h₁ with
  | nil => exact h₂
  | node n hinner _ _ ihrest =>
    rw [List.cons_append, List.append_assoc, List.cons_append]
    exact .node n hinner ihrest

theorem Nested.flatMap {ns : List Cursor} {f : Cursor → List Step}
    (h : ∀ n ∈ ns, Nested (f n)) : Nested (ns.flatMap f) := by
  induction ns with
  | nil => exact .nil
  | cons n ns ih =>
    rw [List.flatMap_cons]
    exact (h n List.mem_cons_self).append (ih fun m hm => h m (List.mem_cons_of_mem n hm))

/-- Properly nested calls leave the same nodes as they enter. -/
theorem Nested.perm {l : List Step} (h : Nested l) : (left l).Perm (entered l) := by
  induction h with
  | nil => exact .nil
  | @node n inner rest _ _ ihinner ihrest =>
    have hleft : left (.enter n :: (inner ++ .leave n :: rest)) = left inner ++ n :: left rest := by
      show left (inner ++ .leave n :: rest) = _
      rw [left_append]
      rfl
    have hentered :
        entered (.enter n :: (inner ++ .leave n :: rest)) =
          n :: (entered inner ++ entered rest) := by
      show n :: entered (inner ++ .leave n :: rest) = _
      rw [entered_append]
      rfl
    rw [hleft, hentered]
    exact List.perm_middle.trans ((ihinner.append ihrest).cons n)

end Step

namespace Cursor

/-- The hook calls of a walk that nothing ends early. -/
def steps (n : Cursor) : List Step :=
  .enter n :: (n.children.attach.flatMap (fun ⟨c, _⟩ => c.steps) ++ [.leave n])
termination_by n.rank
decreasing_by
  rename_i h
  exact rank_lt_of_mem_children h

theorem steps_eq (n : Cursor) :
    n.steps = .enter n :: (n.children.flatMap steps ++ [.leave n]) := by
  rw [steps]
  simp

theorem nested_steps (n : Cursor) : Step.Nested n.steps := by
  induction n using children_induction with
  | step n ih =>
    rw [steps_eq]
    exact .node n (Step.Nested.flatMap ih) .nil

/-- Nodes are entered in preorder. -/
theorem entered_steps (n : Cursor) : Step.entered n.steps = n.preorder := by
  induction n using children_induction with
  | step n ih =>
    have hall : Step.entered (n.children.flatMap steps) = n.children.flatMap preorder := by
      rw [Step.entered, List.filterMap_flatMap]
      exact List.flatMap_congr ih
    rw [steps_eq, preorder_eq]
    show n :: Step.entered (n.children.flatMap steps ++ [.leave n]) = _
    rw [Step.entered_append, hall]
    show n :: (n.children.flatMap preorder ++ []) = _
    rw [List.append_nil]

end Cursor

/-! ## Section 2: The calls of a walk -/

namespace Visitor

variable {ε σ : Type} {v : Visitor ε σ}

/-- A completed walk has made all calls, in order. -/
theorem Walks.steps_log {ns : List Cursor} {p q : σ × List (HookCall σ)} {r : Ending ε}
    (h : v.logging.Walks ns p r q) (completed : r = .completed) :
    q.2.map (·.step) = p.2.map (·.step) ++ ns.flatMap Cursor.steps := by
  induction h with
  | nil p => simp
  | enterFailed | stopped | leaveFailed => cases completed
  | endedBelow _ _ ended => exact absurd completed ended
  | @next n ns p a b c q r enter _ leave _ ih ihrest =>
    rw [ihrest completed, (leave_logging leave).2, List.map_append, ih rfl,
      (enter_logging enter).2, List.map_append, List.flatMap_cons, Cursor.steps_eq]
    simp

/-- The walk with a log answers as the walk without it. -/
theorem walk_logging (v : Visitor ε σ) (n : Cursor) (s : σ) :
    v.logging.walk n (s, []) = ((v.walk n s).1, (v.walk n s).2, v.calls n s) := by
  have hlog := walks_recurse v.logging n (s, [])
  have hwalk := hlog.of_logging.walk_eq
  have hlogwalk := hlog.walk_eq
  rw [hwalk, calls, hlogwalk]

/-- If the walk went on after every call, it made all calls of the subtree. -/
theorem steps_calls {n : Cursor} {s : σ} (h : ∀ c ∈ v.calls n s, v.GoesOn c) :
    (v.calls n s).map (·.step) = n.steps := by
  obtain ⟨r, t, hlog⟩ := walks_calls v n s
  -- An early end would show in the log.
  have hcompleted : r = .completed := by
    by_contra hended
    obtain ⟨c, hc, hstop⟩ := hlog.exists_not_goesOn hended
    exact hstop (h c hc)
  rw [hlog.steps_log hcompleted]
  simp

/-- The walker does what the recursion does: for every node of a built tree,
    every visitor and every initial state, it gives the same answer and the
    same final state.  If no hook call of the walk stops or fails, the calls
    are properly nested, and every node of the subtree is entered exactly once
    and left exactly once. -/
theorem walk_refines_recursion (v : Visitor ε σ) {n : Cursor} (built : n.tree.Built) (s : σ) :
    v.walk n s = ((v.recurse n s).1.result, (v.recurse n s).2) ∧
      v.logging.walk n (s, []) = ((v.walk n s).1, (v.walk n s).2, v.calls n s) ∧
      ((∀ c ∈ v.calls n s, v.GoesOn c) →
        let steps := (v.calls n s).map (·.step)
        Step.Nested steps ∧
          (Step.entered steps).Nodup ∧ (∀ m, m ∈ Step.entered steps ↔ n.Contains m) ∧
          (Step.left steps).Nodup ∧ (∀ m, m ∈ Step.left steps ↔ n.Contains m)) := by
  refine ⟨walk_eq_recurse v n s, walk_logging v n s, ?_⟩
  intro hgoes
  have hnested := n.nested_steps
  have hnodup : (Step.entered n.steps).Nodup := by
    rw [Cursor.entered_steps]
    exact Cursor.nodup_preorder built.linked
  have hmem : ∀ m, m ∈ Step.entered n.steps ↔ n.Contains m := by
    intro m
    rw [Cursor.entered_steps]
    exact Cursor.mem_preorder
  dsimp only
  rw [steps_calls hgoes]
  -- What is left is what is entered, since the calls are nested.
  refine ⟨hnested, hnodup, hmem, hnested.perm.nodup_iff.2 hnodup, ?_⟩
  intro m
  rw [hnested.perm.mem_iff]
  exact hmem m

theorem walk_refines_recursion_twoClasses :
    Tree.twoClasses.Built ∧
      counting.walk Tree.twoClasses.root 0 =
        ((counting.recurse Tree.twoClasses.root 0).1.result,
          (counting.recurse Tree.twoClasses.root 0).2) ∧
      Step.Nested ((counting.calls Tree.twoClasses.root 0).map (·.step)) := by
  have h := walk_refines_recursion counting (n := Tree.twoClasses.root) Tree.built_twoClasses 0
  refine ⟨Tree.built_twoClasses, h.1, (h.2.2 ?_).1⟩
  intro c _
  cases hc : c.step <;> simp only [GoesOn, hc] <;> rfl

end Visitor

end JavaTree
