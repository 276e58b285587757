import JavaTree.Proofs.Document.Levels
import JavaTree.Proofs.Tree.Links

/-! # Numbering level by level

    The builder of a document works off a queue of nodes whose children are
    not added yet.  The ids in the queue are always the last ones issued, in
    order, and their slots have no children (`Builder.Queued`).  One step of
    the queue preserves this, and at the end slot `i` of the arena holds the
    node at place `i` of the document's level order (`holds_ofDocument`). -/

namespace JavaTree

/-! ## Section 1: Adding several children -/

namespace Slot

/-- List several new children at the end of a slot's children. -/
def addChildren (s : Slot) (ids : List Nat) : Slot := ids.foldl addChild s

@[simp] theorem kind_addChildren (s : Slot) (ids : List Nat) :
    (s.addChildren ids).kind = s.kind := by
  induction ids generalizing s with
  | nil => rfl
  | cons id ids ih => exact ih (s.addChild id)

@[simp] theorem attributes_addChildren (s : Slot) (ids : List Nat) :
    (s.addChildren ids).attributes = s.attributes := by
  induction ids generalizing s with
  | nil => rfl
  | cons id ids ih => exact ih (s.addChild id)

theorem toList_addChildren (s : Slot) (ids : List Nat) :
    (s.addChildren ids).children.toList = s.children.toList ++ ids := by
  induction ids generalizing s with
  | nil => simp [addChildren]
  | cons id ids ih =>
    have h := ih (s.addChild id)
    rw [show (s.addChild id).children.toList = s.children.toList ++ [id] from
      Array.toList_push, List.append_assoc] at h
    exact h

end Slot

namespace Builder

/-- Documents with consecutive numbers. -/
def numbered (first : Nat) : List Document → List (Nat × Document)
  | [] => []
  | d :: ds => (first, d) :: numbered (first + 1) ds

theorem numbered_append (first : Nat) (ds es : List Document) :
    numbered first (ds ++ es) = numbered first ds ++ numbered (first + ds.length) es := by
  induction ds generalizing first with
  | nil => rfl
  | cons d ds ih =>
    rw [List.cons_append, numbered, numbered, ih, List.length_cons, List.cons_append]
    congr 3
    omega

/-- Documents added below a node get the next numbers. -/
theorem addAll_snd {b : Builder} {parent : Nat} (h : parent < b.size) (ds : List Document) :
    (b.addAll parent ds).2 = numbered b.size ds := by
  induction ds generalizing b with
  | nil => rfl
  | cons d ds ih =>
    have hsize := b.size_add h d.kind d.attributes
    rw [addAll, numbered, ← hsize]
    exact congrArg _ (ih (by omega))

/-- The slots after documents were added below a node: the parent with all
    new children, every other old slot as before, and the new slots. -/
theorem getElem?_addAll {b : Builder} {parent : Nat} (h : parent < b.size) (ds : List Document)
    (i : Nat) :
    (b.addAll parent ds).1.arena.slots[i]? =
      if i < b.size then
        b.arena.slots[i]?.map fun s =>
          if i = parent then s.addChildren (List.range' b.size ds.length) else s
      else ds[i - b.size]?.map fun d => ⟨d.kind, d.attributes, #[], some parent⟩ := by
  induction ds generalizing b with
  | nil =>
    show b.arena.slots[i]? = _
    by_cases hi : i < b.size
    · rw [if_pos hi]
      cases b.arena.slots[i]? <;> simp [Slot.addChildren]
    · have hnone : b.arena.slots[i]? = none := Array.getElem?_eq_none (Nat.le_of_not_lt hi)
      rw [if_neg hi, hnone]
      rfl
  | cons d ds ih =>
    have hsize := b.size_add h d.kind d.attributes
    have hadd := Arena.getElem?_add h d.kind d.attributes i
    rw [← add_eq h, show b.arena.size = b.size from rfl] at hadd
    rw [addAll]
    show ((b.add parent d.kind d.attributes).addAll parent ds).1.arena.slots[i]? = _
    rw [ih (by omega), hadd, hsize]
    -- An old slot, the slot of the first new child, or that of a later one.
    rcases Nat.lt_trichotomy i b.size with hi | hi | hi
    · rw [if_pos (by omega), if_neg (by omega), if_pos hi, List.length_cons, List.range'_succ]
      by_cases hp : i = parent
      · simp only [if_pos hp, Option.map_map]
        rfl
      · simp only [if_neg hp]
    · have hp : i ≠ parent := by omega
      rw [if_pos (by omega), if_pos hi, if_neg (by omega), hi, Nat.sub_self]
      simp only [← hi, if_neg hp]
      rfl
    · have hsub : i - b.size = (i - (b.size + 1)) + 1 := by omega
      rw [if_neg (by omega), if_neg (by omega), hsub, List.getElem?_cons_succ]

theorem size_addAll {b : Builder} {parent : Nat} (h : parent < b.size) (ds : List Document) :
    (b.addAll parent ds).1.size = b.size + ds.length := by
  induction ds generalizing b with
  | nil => rfl
  | cons d ds ih =>
    have hsize := b.size_add h d.kind d.attributes
    rw [addAll]
    show ((b.add parent d.kind d.attributes).addAll parent ds).1.size = _
    rw [ih (by omega), hsize, List.length_cons]
    omega

end Builder

/-! ## Section 2: Slots that hold documents -/

/-- Slot `i` and the slots below it hold the document `d`. -/
inductive Arena.Holds (a : Arena) : Nat → Document → Prop where
  | node {i : Nat} {s : Slot} {d : Document} (slot : a.slots[i]? = some s)
      (kind : s.kind = d.kind) (attributes : s.attributes = d.attributes)
      (count : s.children.size = d.children.length)
      (children : ∀ (j c : Nat) (e : Document), s.children[j]? = some c →
        d.children[j]? = some e → Holds a c e) : Holds a i d

/-- A slot holds one document only. -/
theorem Arena.Holds.unique {a : Arena} {i : Nat} {d e : Document} (hd : a.Holds i d)
    (he : a.Holds i e) : d = e := by
  induction hd generalizing e with
  | @node i s d slot kind attributes count children ih =>
    cases he with
    | @node _ s' _ slot' kind' attributes' count' children' =>
      obtain rfl := Option.some.inj (slot.symm.trans slot')
      obtain ⟨k, at₁, cs⟩ := d
      obtain ⟨k', at₂, cs'⟩ := e
      simp only [Document.kind_node, Document.attributes_node, Document.children_node] at *
      rw [← kind, ← attributes, ← kind', ← attributes']
      congr 1
      -- Place by place both lists of children hang on the same slot.
      apply List.ext_getElem
      · omega
      · intro j hj hj'
        have hlt : j < s.children.size := by omega
        have hc := Array.getElem?_eq_getElem hlt
        exact ih j _ _ hc (List.getElem?_eq_getElem hj)
          (children' j _ _ hc (List.getElem?_eq_getElem hj'))

namespace Builder

/-- The state of the queue: the numbers from `first` upwards are issued to
    the pending documents, in order, and no child of theirs is added yet. -/
structure Queued (b : Builder) (first : Nat) (pending : List Document) : Prop where
  /-- The pending documents have the last numbers. -/
  size_eq : b.size = first + pending.length
  /-- Their slots are without children. -/
  bare : ∀ (j : Nat) (d : Document), pending[j]? = some d → ∃ parent : Option Nat,
    b.arena.slots[first + j]? = some ⟨d.kind, d.attributes, #[], parent⟩

theorem Queued.size_cons {b : Builder} {first : Nat} {d : Document} {rest : List Document}
    (h : b.Queued first (d :: rest)) : b.size = first + 1 + rest.length := by
  rw [h.size_eq, List.length_cons]
  omega

theorem queued_withRoot (d : Document) : (withRoot d.kind d.attributes).Queued 0 [d] where
  size_eq := rfl
  bare := by
    intro j e h
    cases j with
    | zero =>
      obtain rfl : d = e := Option.some.inj h
      exact ⟨none, rfl⟩
    | succ j => simp at h

/-- One step of the queue: the first pending document gets its children. -/
theorem Queued.step {b : Builder} {first : Nat} {d : Document} {rest : List Document}
    (h : b.Queued first (d :: rest)) :
    (b.addAll first d.children).1.Queued (first + 1) (rest ++ d.children) where
  size_eq := by
    have hsize := h.size_cons
    rw [size_addAll (by omega), hsize, List.length_append]
    omega
  bare := by
    intro j e he
    have hsize := h.size_cons
    rw [getElem?_addAll (by omega)]
    by_cases hj : j < rest.length
    · -- The document was pending before and is not the parent.
      rw [List.getElem?_append_left hj] at he
      obtain ⟨parent, hslot⟩ := h.bare (j + 1) e he
      refine ⟨parent, ?_⟩
      rw [if_pos (by omega), show first + 1 + j = first + (j + 1) by omega, hslot, Option.map_some,
        if_neg (by omega)]
    · -- The document is one of the new children.
      rw [List.getElem?_append_right (Nat.le_of_not_lt hj)] at he
      refine ⟨some first, ?_⟩
      rw [if_neg (by omega), show first + 1 + j - b.size = j - rest.length by omega, he,
        Option.map_some]

/-- The slot of the first pending document after that step. -/
theorem Queued.getElem?_first {b : Builder} {first : Nat} {d : Document} {rest : List Document}
    (h : b.Queued first (d :: rest)) :
    ∃ s : Slot, (b.addAll first d.children).1.arena.slots[first]? = some s ∧ s.kind = d.kind ∧
      s.attributes = d.attributes ∧ s.children.toList = List.range' b.size d.children.length := by
  have hsize := h.size_cons
  obtain ⟨parent, hslot⟩ := h.bare 0 d rfl
  rw [Nat.add_zero] at hslot
  refine ⟨_, ?_, Slot.kind_addChildren ⟨d.kind, d.attributes, #[], parent⟩ _,
    Slot.attributes_addChildren _ _, Slot.toList_addChildren _ _⟩
  rw [getElem?_addAll (by omega), if_pos (by omega), hslot, Option.map_some, if_pos rfl]

/-- What a step of the queue leaves alone: every slot before the first
    pending one. -/
theorem Queued.getElem?_of_lt {b : Builder} {first i : Nat} {d : Document} {rest : List Document}
    (h : b.Queued first (d :: rest)) (hi : i < first) :
    (b.addAll first d.children).1.arena.slots[i]? = b.arena.slots[i]? := by
  have hsize := h.size_cons
  have hne : i ≠ first := Nat.ne_of_lt hi
  rw [getElem?_addAll (by omega), if_pos (by omega)]
  simp only [if_neg hne, Option.map_id']

theorem Queued.addBelow_cons {b : Builder} {first : Nat} {d : Document} {rest : List Document}
    (h : b.Queued first (d :: rest)) :
    b.addBelow (numbered first (d :: rest)) =
      (b.addAll first d.children).1.addBelow (numbered (first + 1) (rest ++ d.children)) := by
  have hsize := h.size_cons
  rw [numbered, addBelow, addAll_snd (by omega), numbered_append, hsize]

/-- The whole run of the queue: slots before it stay, its slots hold the
    documents in the order in which the queue meets them, and there are no
    others. -/
theorem Queued.run {b : Builder} {first : Nat} {pending : List Document}
    (h : b.Queued first pending) :
    (∀ i < first, (b.addBelow (numbered first pending)).arena.slots[i]? = b.arena.slots[i]?) ∧
      (∀ j e, (Document.queueOrder pending)[j]? = some e →
        (b.addBelow (numbered first pending)).arena.Holds (first + j) e) ∧
      (b.addBelow (numbered first pending)).size =
        first + (Document.queueOrder pending).length := by
  fun_induction Document.queueOrder pending generalizing b first with
  | case1 =>
    rw [numbered, addBelow]
    refine ⟨fun _ _ => rfl, ?_, h.size_eq⟩
    intro j e he
    simp at he
  | case2 d rest ih =>
    obtain ⟨hbefore, hholds, hsize⟩ := ih h.step
    rw [h.addBelow_cons]
    refine ⟨?_, ?_, ?_⟩
    · intro i hi
      rw [hbefore i (by omega), h.getElem?_of_lt hi]
    · intro j e he
      cases j with
      | succ j =>
        rw [show first + (j + 1) = first + 1 + j by omega]
        exact hholds j e he
      | zero =>
        -- The slot got its children in this step and is not touched later.
        obtain rfl : d = e := Option.some.inj he
        obtain ⟨s, hs, hkind, hattributes, hchildren⟩ := h.getElem?_first
        have hslot := (hbefore first (by omega)).trans hs
        have hcount : s.children.size = d.children.length := by
          rw [← Array.length_toList, hchildren, List.length_range']
        refine .node hslot hkind hattributes hcount ?_
        intro j c e hc he
        -- The child at place `j` is met by the queue after the rest of it.
        have hlt : j < d.children.length := (List.getElem?_eq_some_iff.1 he).1
        have hqueue : (Document.queueOrder (rest ++ d.children))[rest.length + j]? = some e := by
          rw [Document.queueOrder_eq, List.getElem?_append_left (by simp; omega),
            List.getElem?_append_right (by omega), Nat.add_sub_cancel_left, he]
        have hid : c = b.size + j := by
          rw [← Array.getElem?_toList, hchildren, List.getElem?_range' hlt] at hc
          have := Option.some.inj hc
          omega
        rw [hid, h.size_cons, Nat.add_assoc]
        exact hholds _ e hqueue
    · rw [hsize, List.length_cons]
      omega

/-- The builder of a document numbers its nodes in level order. -/
theorem holds_ofDocument {d e : Document} {i : Nat} (h : d.levelOrder[i]? = some e) :
    (ofDocument d).arena.Holds i e := by
  rw [← Document.queueOrder_singleton] at h
  have hholds := (queued_withRoot d).run.2.1 i e h
  rw [Nat.zero_add] at hholds
  exact hholds

theorem size_ofDocument (d : Document) : (ofDocument d).size = d.size := by
  have hsize := (queued_withRoot d).run.2.2
  rw [Document.queueOrder_singleton, Document.length_levelOrder, Nat.zero_add] at hsize
  exact hsize

end Builder

end JavaTree
