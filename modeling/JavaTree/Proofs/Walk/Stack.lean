import JavaTree.Proofs.Walk.Recursion
import JavaTree.Print

/-! # Walks that combine results on a stack

    Documents and source texts are made bottom-up: on the way up a node takes
    as many results off a stack as it has children, combines them and puts
    its own result in their place.  `Visitor.Stacks` is what these visitors
    have in common.

    `Visitor.Combines` says by recursion along child links what the result of
    every node is.  `stacks_walks` relates the two: the walk of some subtrees
    puts exactly their results on the stack, or fails with the first failure
    among them. -/

namespace JavaTree

variable {ε α : Type}

/-! ## Section 1: Results in order -/

theorem mapM_cons_ok {f : Cursor → Except ε α} {n : Cursor} {ns : List Cursor} {a : α}
    {as : List α} (ha : f n = .ok a) (has : ns.mapM f = .ok as) :
    (n :: ns).mapM f = .ok (a :: as) := by
  rw [List.mapM_cons, ha, has]
  rfl

theorem mapM_cons_error {f : Cursor → Except ε α} {n : Cursor} {ns : List Cursor} {e : ε}
    (he : f n = .error e) : (n :: ns).mapM f = .error e := by
  rw [List.mapM_cons, he]
  rfl

theorem mapM_cons_error_tail {f : Cursor → Except ε α} {n : Cursor} {ns : List Cursor} {a : α}
    {e : ε} (ha : f n = .ok a) (he : ns.mapM f = .error e) : (n :: ns).mapM f = .error e := by
  rw [List.mapM_cons, ha, he]
  rfl

theorem mapM_cons_eq_ok {f : Cursor → Except ε α} {n : Cursor} {ns : List Cursor} {as : List α}
    (h : (n :: ns).mapM f = .ok as) :
    ∃ b bs, f n = .ok b ∧ ns.mapM f = .ok bs ∧ as = b :: bs := by
  cases hn : f n with
  | error e =>
    rw [mapM_cons_error hn] at h
    cases h
  | ok b =>
    cases hns : ns.mapM f with
    | error e =>
      rw [mapM_cons_error_tail hn hns] at h
      cases h
    | ok bs =>
      rw [mapM_cons_ok hn hns] at h
      cases h
      exact ⟨b, bs, rfl, rfl, rfl⟩

/-- The result at a place is that of the node at the same place. -/
theorem getElem?_of_mapM_ok {f : Cursor → Except ε α} {ns : List Cursor} {as : List α}
    (h : ns.mapM f = .ok as) {i : Nat} {n : Cursor} (hn : ns[i]? = some n) :
    ∃ a, as[i]? = some a ∧ f n = .ok a := by
  induction ns generalizing as i with
  | nil => cases hn
  | cons m ns ih =>
    obtain ⟨b, bs, hb, hbs, rfl⟩ := mapM_cons_eq_ok h
    cases i with
    | zero =>
      obtain rfl : m = n := Option.some.inj hn
      exact ⟨b, rfl, hb⟩
    | succ i => exact ih hbs hn

theorem length_of_mapM_ok {f : Cursor → Except ε α} {ns : List Cursor} {as : List α}
    (h : ns.mapM f = .ok as) : as.length = ns.length := by
  induction ns generalizing as with
  | nil =>
    cases h
    rfl
  | cons n ns ih =>
    obtain ⟨b, bs, -, hbs, rfl⟩ := mapM_cons_eq_ok h
    rw [List.length_cons, List.length_cons, ih hbs]

theorem mapM_ok (f : Cursor → α) (ns : List Cursor) :
    ns.mapM (fun n => (.ok (f n) : Except ε α)) = .ok (ns.map f) := by
  induction ns with
  | nil => rfl
  | cons n ns ih =>
    rw [List.mapM_cons, ih]
    rfl

theorem length_eq_childCount {f : Cursor → Except ε α} {n : Cursor} {as : List α}
    (h : n.children.mapM f = .ok as) : as.length = n.childCount := by
  rw [length_of_mapM_ok h, Cursor.length_children]

/-- The results of the children come off a stack in the order of the children. -/
theorem popResults_reverse_append {n : Cursor} {as : List α} (h : as.length = n.childCount)
    (stack : List α) : popResults n.childCount (as.reverse ++ stack) = (as, stack) := by
  have hlen : as.reverse.length = n.childCount := by rw [List.length_reverse, h]
  rw [popResults, ← hlen, List.take_left, List.drop_left, List.reverse_reverse]

namespace Visitor

/-! ## Section 2: Stacking visitors -/

/-- The visitor enters every node, and where it leaves one with results of as
    many children on the stack as the node has, it puts the combined result in
    their place. -/
structure Stacks (v : Visitor ε (List α)) (combine : Cursor → List α → Except ε α) : Prop where
  enter : ∀ n s, v.enter n s = (.ok .descend, s)
  leave : ∀ (n : Cursor) (as stack : List α), as.length = n.childCount →
    v.leave n (as.reverse ++ stack) =
      match combine n as with
      | .ok a => (.ok (), a :: stack)
      | .error e => (.error e, stack)

theorem documenting_stacks :
    documenting.Stacks fun n children => .ok (.node n.kind n.attributes children) where
  enter _ _ := rfl
  leave n as stack h := by
    simp only [documenting, pure, popResults_reverse_append h]

theorem printer_stacks (unit : String) : (Printer.visitor unit).Stacks
    fun n bodies => Renderer.node unit n.kind n.attributes (n.toParts bodies) where
  enter _ _ := rfl
  leave n as stack h := by
    have hlength : ¬(as.reverse ++ stack).length < n.childCount := by
      rw [List.length_append, List.length_reverse, h]
      omega
    simp only [Printer.visitor, if_neg hlength, popResults_reverse_append h]
    cases Renderer.node unit n.kind n.attributes (n.toParts as) <;> rfl

/-- The result of a node is combined from those of its children, in order. -/
def Combines (combine : Cursor → List α → Except ε α) (result : Cursor → Except ε α) : Prop :=
  ∀ n, result n = (n.children.mapM result).bind (combine n)

variable {v : Visitor ε (List α)} {combine : Cursor → List α → Except ε α}
  {result : Cursor → Except ε α}

theorem Combines.of_children {n : Cursor} (hr : Combines combine result) {as : List α}
    (h : n.children.mapM result = .ok as) : result n = combine n as := by
  rw [hr n, h]
  rfl

theorem Combines.of_children_error {n : Cursor} (hr : Combines combine result) {e : ε}
    (h : n.children.mapM result = .error e) : result n = .error e := by
  rw [hr n, h]
  rfl

/-- How the walk of some subtrees ends, told by their results: it completes
    and has put exactly the results on the stack, or it fails with the first
    failure among them. -/
def StackEnding (results : Except ε (List α)) (stack : List α) (r : Ending ε)
    (final : List α) : Prop :=
  match results with
  | .ok as => r = .completed ∧ final = as.reverse ++ stack
  | .error e => r = .failed e

theorem StackEnding.completed {results : Except ε (List α)} {stack final : List α}
    (h : StackEnding results stack .completed final) :
    ∃ as, results = .ok as ∧ final = as.reverse ++ stack := by
  cases results with
  | ok as => exact ⟨as, rfl, h.2⟩
  | error e => cases h

/-- The walk of some subtrees puts their results on the stack and touches
    nothing below. -/
theorem stacks_walks (hv : v.Stacks combine) (hr : Combines combine result) {ns : List Cursor}
    {stack final : List α} {r : Ending ε} (h : v.Walks ns stack r final) :
    StackEnding (ns.mapM result) stack r final := by
  induction h with
  | nil s => exact ⟨rfl, rfl⟩
  | enterFailed enter =>
    rw [hv.enter] at enter
    cases enter
  | stopped enter =>
    rw [hv.enter] at enter
    cases enter
  | @endedBelow n ns s t u r _ _ ended ih =>
    -- Had the children all had results, the walk would not have ended below.
    cases hchildren : n.children.mapM result with
    | ok as =>
      rw [hchildren] at ih
      exact absurd ih.1 ended
    | error e =>
      rw [hchildren] at ih
      rw [mapM_cons_error (hr.of_children_error hchildren)]
      exact ih
  | @leaveFailed n ns s t u w e _ _ leave ih =>
    obtain ⟨as, has, rfl⟩ := ih.completed
    rw [hv.leave n as _ (length_eq_childCount has)] at leave
    cases hn : combine n as with
    | ok a =>
      rw [hn] at leave
      cases leave
    | error e' =>
      rw [hn] at leave
      cases leave
      rw [mapM_cons_error ((hr.of_children has).trans hn)]
      rfl
  | @next n ns s t u w x r enter _ leave _ ih ihrest =>
    obtain ⟨as, has, rfl⟩ := ih.completed
    rw [hv.enter] at enter
    cases enter
    rw [hv.leave n as _ (length_eq_childCount has)] at leave
    cases hn : combine n as with
    | error e =>
      rw [hn] at leave
      cases leave
    | ok a =>
      rw [hn] at leave
      cases leave
      -- The results of the children are off the stack, and that of the node
      -- is on it; the siblings are walked from there.
      have hresult : result n = .ok a := (hr.of_children has).trans hn
      cases hrest : ns.mapM result with
      | error e =>
        rw [hrest] at ihrest
        rw [mapM_cons_error_tail hresult hrest]
        exact ihrest
      | ok bs =>
        rw [hrest] at ihrest
        rw [mapM_cons_ok hresult hrest]
        refine ⟨ihrest.1, ?_⟩
        rw [ihrest.2]
        simp

/-- The walk of one subtree leaves its result, alone on the stack. -/
theorem stacks_walk_ok (hv : v.Stacks combine) (hr : Combines combine result) {n : Cursor} {a : α}
    (h : result n = .ok a) : v.walk n [] = (.ok (), [a]) := by
  have hwalks := walks_recurse v n []
  have hend := stacks_walks hv hr hwalks
  rw [mapM_cons_ok h (rfl : [].mapM result = .ok [])] at hend
  rw [hwalks.walk_eq, hend.1, hend.2]
  rfl

theorem stacks_walk_error (hv : v.Stacks combine) (hr : Combines combine result) {n : Cursor}
    {e : ε} (h : result n = .error e) : ∃ stack, v.walk n [] = (.error e, stack) := by
  have hwalks := walks_recurse v n []
  have hend := stacks_walks hv hr hwalks
  rw [mapM_cons_error h] at hend
  have hfailed : (v.recurse n []).1 = .failed e := hend
  exact ⟨(v.recurse n []).2, by rw [hwalks.walk_eq, hfailed]; rfl⟩

/-! ## Section 3: What is taken off the stack -/

/-- On the way up every node finds the results of its children on the stack:
    there are at least as many entries as it takes off, and those it takes
    off are the children's results in their order. -/
def PopsResults (v : Visitor ε (List α)) (result : Cursor → Except ε α) (n : Cursor) : Prop :=
  ∀ c ∈ v.calls n [], ∀ m, c.step = .leave m →
    m.childCount ≤ c.state.length ∧
      m.children.mapM result = .ok (popResults m.childCount c.state).1

theorem stacks_popsResults (hv : v.Stacks combine) (hr : Combines combine result) (n : Cursor) :
    v.PopsResults result n := by
  obtain ⟨r, t, hlog⟩ := walks_calls v n []
  refine hlog.mem_log ?_ ?_ (by simp)
  · intro n s m h
    cases h
  · -- A node is left only after its children were walked to the end, so their
    -- results are what lies on top.
    intro n s t u enter inner m h
    cases h
    rw [hv.enter] at enter
    cases enter
    obtain ⟨as, has, rfl⟩ := (stacks_walks hv hr inner).completed
    have hlength := length_eq_childCount has
    refine ⟨?_, ?_⟩
    · show n.childCount ≤ (as.reverse ++ s).length
      rw [List.length_append, List.length_reverse, hlength]
      omega
    · show n.children.mapM result = .ok (popResults n.childCount (as.reverse ++ s)).1
      rw [popResults_reverse_append hlength]
      exact has

end Visitor

/-! ## Section 4: Documents -/

namespace Cursor

/-- The document of a subtree by recursion. -/
def unfold (n : Cursor) : Document :=
  .node n.kind n.attributes (n.children.attach.map fun ⟨c, _⟩ => c.unfold)
termination_by n.rank
decreasing_by
  rename_i h
  exact rank_lt_of_mem_children h

theorem unfold_eq (n : Cursor) :
    n.unfold = .node n.kind n.attributes (n.children.map unfold) := by
  rw [unfold]
  simp

theorem combines_unfold : Visitor.Combines
    (fun n children => (.ok (.node n.kind n.attributes children) : Except Empty Document))
    (fun n => .ok n.unfold) := by
  intro n
  rw [mapM_ok]
  show Except.ok n.unfold = .ok (.node n.kind n.attributes (n.children.map unfold))
  rw [← unfold_eq]

theorem documenting_walk (n : Cursor) : Visitor.documenting.walk n [] = (.ok (), [n.unfold]) :=
  Visitor.stacks_walk_ok Visitor.documenting_stacks combines_unfold rfl

theorem toDocument_eq_unfold (n : Cursor) : n.toDocument = n.unfold := by
  rw [toDocument, Visitor.finalState, documenting_walk]
  rfl

/-- The document of a node holds the documents of its children, in order. -/
theorem toDocument_eq (n : Cursor) :
    n.toDocument = .node n.kind n.attributes (n.children.map toDocument) := by
  have hall : toDocument = unfold := funext toDocument_eq_unfold
  rw [hall]
  exact unfold_eq n

theorem toDocument_of_children {n : Cursor} {cs : List Cursor} (h : n.children = cs) :
    n.toDocument = .node n.kind n.attributes (cs.map toDocument) := by
  rw [toDocument_eq, h]

@[simp] theorem kind_toDocument (n : Cursor) : n.toDocument.kind = n.kind := by
  rw [toDocument_eq]
  rfl

@[simp] theorem attributes_toDocument (n : Cursor) : n.toDocument.attributes = n.attributes := by
  rw [toDocument_eq]
  rfl

@[simp] theorem children_toDocument (n : Cursor) :
    n.toDocument.children = n.children.map toDocument := by
  rw [toDocument_eq]
  rfl

end Cursor

end JavaTree
