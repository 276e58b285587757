import JavaTree.Tree.Cursor
import Mathlib.Data.List.Nodup
import Mathlib.Logic.Relation

/-! # Links of built trees

    Validation looks at every node's link to its parent and not at the links
    of a node to its children, so the tree shape of an arena does not follow
    from it.  It follows from how a builder adds nodes.

    `Builder.Reachable` describes the builders made by calls that use issued
    ids only.  `Arena.Linked` is what every such call preserves: parents list
    their children once, and children name the node that lists them.  In a
    linked tree every subtree is a tree: `Cursor.nodup_preorder` says that no
    node is met twice on the way down, and `Tree.root_contains` that every
    node is met from the root. -/

namespace JavaTree

/-! ## Section 1: Reachable builders -/

/-- Builders made by calls that use only ids the builder issued before. -/
inductive Builder.Reachable : Builder → Prop where
  /-- A new builder has issued the id of its root. -/
  | start (kind : Kind) (attributes : Attributes) : Reachable (withRoot kind attributes)
  /-- Add a node below any node that exists. -/
  | add {b : Builder} {parent : Nat} (reach : Reachable b) (issued : parent < b.size)
      (kind : Kind) (attributes : Attributes) : Reachable (b.add parent kind attributes)
  /-- Put an attribute at any node that exists. -/
  | setAttribute {b : Builder} {id : Nat} (reach : Reachable b) (issued : id < b.size)
      (key : String) (value : AttrValue) : Reachable (b.setAttribute id key value)

theorem Builder.add_eq {b : Builder} {parent : Nat} (h : parent < b.size) (kind : Kind)
    (attributes : Attributes) : (b.add parent kind attributes).arena
      = b.arena.add parent kind attributes := by
  have h' : parent < b.arena.size := h
  rw [add, dif_pos h']

/-- A tree that some reachable builder was finished to. -/
def Tree.Built (t : Tree) : Prop := ∃ b : Builder, b.Reachable ∧ b.finish = .ok t

/-- A builder is finished to the tree of its own nodes, if there are not too
    many and every rule holds. -/
theorem Builder.finish_eq_ok_iff {b : Builder} {t : Tree} :
    b.finish = .ok t ↔ b.size ≤ Tree.maxSize ∧ t.arena = b.arena := by
  unfold finish
  by_cases hsize : Tree.maxSize < b.size
  · rw [if_pos hsize]
    constructor
    · intro h
      cases h
    · rintro ⟨hle, -⟩
      omega
  · rw [if_neg hsize]
    constructor
    · intro h
      split at h
      · cases h
      · cases h
        exact ⟨by omega, rfl⟩
    · -- A tree is valid, and this one has the builder's own arena.
      rintro ⟨-, harena⟩
      have hvalid : b.arena.validate = .ok () := harena ▸ t.valid
      obtain ⟨arena, ordered, valid⟩ := t
      subst harena
      split
      · rename_i e he
        rw [hvalid] at he
        cases he
      · rfl

/-- Adding documents below an issued id uses issued ids only.  The ids it
    returns are issued too. -/
theorem Builder.Reachable.addAll {b : Builder} {parent : Nat} (reach : b.Reachable)
    (issued : parent < b.size) (ds : List Document) :
    (b.addAll parent ds).1.Reachable ∧ b.size ≤ (b.addAll parent ds).1.size ∧
      ∀ p ∈ (b.addAll parent ds).2, p.1 < (b.addAll parent ds).1.size := by
  induction ds generalizing b with
  | nil => exact ⟨reach, Nat.le_refl _, by simp [Builder.addAll]⟩
  | cons d ds ih =>
    have hsize := b.size_add issued d.kind d.attributes
    obtain ⟨hreach, hle, hids⟩ := ih (reach.add issued d.kind d.attributes) (by omega)
    simp only [Builder.addAll]
    refine ⟨hreach, by omega, ?_⟩
    intro p hp
    rcases List.mem_cons.1 hp with rfl | hp
    · show b.size < _
      omega
    · exact hids p hp

theorem Builder.Reachable.addBelow {b : Builder} {pending : List (Nat × Document)}
    (reach : b.Reachable) (issued : ∀ p ∈ pending, p.1 < b.size) :
    (b.addBelow pending).Reachable := by
  fun_induction Builder.addBelow b pending with
  | case1 b => exact reach
  | case2 b id d rest ih =>
    obtain ⟨hreach, hle, hids⟩ := reach.addAll (issued (id, d) List.mem_cons_self) d.children
    apply ih hreach
    intro p hp
    rcases List.mem_append.1 hp with hp | hp
    · exact Nat.lt_of_lt_of_le (issued p (List.mem_cons_of_mem _ hp)) hle
    · exact hids p hp

/-- The builder of a document is reachable. -/
theorem Builder.reachable_ofDocument (d : Document) : (Builder.ofDocument d).Reachable := by
  apply (Builder.Reachable.start d.kind d.attributes).addBelow
  intro p hp
  obtain rfl : p = (0, d) := List.mem_singleton.1 hp
  exact (Builder.withRoot d.kind d.attributes).ordered.nonempty

/-- The tree of a document is a built one. -/
theorem Tree.built_of_ofDocument {d : Document} {t : Tree} (h : Tree.ofDocument d = .ok t) :
    t.Built :=
  ⟨Builder.ofDocument d, Builder.reachable_ofDocument d, h⟩

/-! ## Section 2: The link invariant -/

namespace Arena

/-- Parent links and child lists agree. -/
structure Linked (a : Arena) : Prop where
  /-- The root has no parent. -/
  root_parent : ∀ s : Slot, a.slots[0]? = some s → s.parent = none
  /-- Every other slot is listed exactly once by its parent. -/
  listed_once : ∀ (i : Nat) (s : Slot), 0 < i → a.slots[i]? = some s →
    ∃ (p : Nat) (ps : Slot), s.parent = some p ∧ a.slots[p]? = some ps ∧ ps.children.count i = 1
  /-- A listed slot names as its parent the slot that lists it. -/
  named : ∀ (i : Nat) (s : Slot), a.slots[i]? = some s → ∀ c ∈ s.children,
    ∃ cs : Slot, a.slots[c]? = some cs ∧ cs.parent = some i

theorem lt_size {a : Arena} {i : Nat} {s : Slot} (h : a.slots[i]? = some s) : i < a.size :=
  (Array.getElem?_eq_some_iff.1 h).1

/-- The slots after a node was added: the new one, its parent with one more
    child, and all others as before. -/
theorem getElem?_add {a : Arena} {parent : Nat} (h : parent < a.size) (kind : Kind)
    (attributes : Attributes) (i : Nat) :
    (a.add parent kind attributes).slots[i]? =
      if i = a.size then some ⟨kind, attributes, #[], some parent⟩
      else if i = parent then a.slots[i]?.map (Slot.addChild · a.size)
      else a.slots[i]? := by
  unfold size at h ⊢
  simp only [add, Array.getElem?_modify, Array.getElem?_push]
  by_cases hi : i = a.slots.size
  · simp [hi, show parent ≠ a.slots.size by omega]
  · by_cases hp : parent = i
    · simp [hi, hp]
    · simp [hi, hp, Ne.symm hp]

/-- An older slot is still there after a node was added; at most its child
    list has grown, by the new node. -/
theorem getElem?_add_of_some {a : Arena} {parent i : Nat} {s : Slot} (h : parent < a.size)
    (hs : a.slots[i]? = some s) (kind : Kind) (attributes : Attributes) :
    (a.add parent kind attributes).slots[i]? =
      some (if i = parent then s.addChild a.size else s) := by
  have hi : i ≠ a.size := Nat.ne_of_lt (lt_size hs)
  rw [getElem?_add h, if_neg hi, hs]
  split <;> rfl

/-- Where a slot comes from after a node was added. -/
theorem getElem?_add_cases {a : Arena} {parent i : Nat} {s : Slot} (h : parent < a.size)
    {kind : Kind} {attributes : Attributes}
    (hs : (a.add parent kind attributes).slots[i]? = some s) :
    (i = a.size ∧ s = ⟨kind, attributes, #[], some parent⟩) ∨
      ∃ old, a.slots[i]? = some old ∧ s = if i = parent then old.addChild a.size else old := by
  by_cases hi : i = a.size
  · rw [getElem?_add h, if_pos hi, Option.some.injEq] at hs
    exact .inl ⟨hi, hs.symm⟩
  · rw [getElem?_add h, if_neg hi] at hs
    refine .inr ?_
    by_cases hp : i = parent
    · rw [if_pos hp] at hs
      obtain ⟨old, hold, rfl⟩ := Option.map_eq_some_iff.1 hs
      exact ⟨old, hold, by rw [if_pos hp]⟩
    · rw [if_neg hp] at hs
      exact ⟨s, hs, by rw [if_neg hp]⟩

theorem linked_single (kind : Kind) (attributes : Attributes) :
    (single kind attributes).Linked where
  root_parent := by
    intro s hs
    simp only [single, List.getElem?_toArray, List.getElem?_cons_zero, Option.some.injEq] at hs
    rw [← hs]
  listed_once := by
    intro i s hi hs
    have hlt := lt_size hs
    simp only [single, size, List.size_toArray, List.length_singleton] at hlt
    omega
  named := by
    intro i s hs c hc
    have hlt := lt_size hs
    simp only [single, size, List.size_toArray, List.length_singleton] at hlt
    obtain rfl : i = 0 := by omega
    simp only [single, List.getElem?_toArray, List.getElem?_cons_zero, Option.some.injEq] at hs
    rw [← hs] at hc
    simp at hc

/-- One more child leaves the count of any other id alone. -/
theorem count_addChild_of_ne {i id : Nat} (h : i ≠ id) (s : Slot) :
    (s.addChild id).children.count i = s.children.count i := by
  simp [Slot.addChild, Ne.symm h]

/-- An id that is not issued yet is listed nowhere. -/
theorem count_size_eq_zero {a : Arena} (ho : a.Ordered) {p : Nat} {ps : Slot}
    (h : a.slots[p]? = some ps) : ps.children.count a.size = 0 := by
  rw [Array.count_eq_zero]
  intro hmem
  have := (ho.children_above p ps h a.size hmem).2
  omega

theorem linked_add {a : Arena} (ho : a.Ordered) (hl : a.Linked) {parent : Nat}
    (h : parent < a.size) (kind : Kind) (attributes : Attributes) :
    (a.add parent kind attributes).Linked where
  root_parent := by
    intro s hs
    rcases getElem?_add_cases h hs with ⟨h0, -⟩ | ⟨old, hold, rfl⟩
    · exact absurd h0.symm (Nat.ne_of_gt ho.nonempty)
    · have hparent := hl.root_parent old hold
      split
      · exact hparent
      · exact hparent
  listed_once := by
    intro i s hi hs
    rcases getElem?_add_cases h hs with ⟨rfl, rfl⟩ | ⟨old, hold, rfl⟩
    · -- The new slot stands at the end of its parent's list and nowhere before.
      obtain ⟨ps, hps⟩ : ∃ ps, a.slots[parent]? = some ps := ⟨_, Array.getElem?_eq_getElem h⟩
      refine ⟨parent, ps.addChild a.size, rfl, ?_, ?_⟩
      · rw [getElem?_add_of_some h hps, if_pos rfl]
      · have hzero := count_size_eq_zero ho hps
        simp [Slot.addChild, hzero]
    · obtain ⟨p, ps, hp, hps, hcount⟩ := hl.listed_once i old hi hold
      have hne : i ≠ a.size := Nat.ne_of_lt (lt_size hold)
      refine ⟨p, _, ?_, getElem?_add_of_some h hps kind attributes, ?_⟩
      · split <;> exact hp
      · split
        · rw [count_addChild_of_ne hne, hcount]
        · exact hcount
  named := by
    intro i s hs c hc
    rcases getElem?_add_cases h hs with ⟨rfl, rfl⟩ | ⟨old, hold, rfl⟩
    · simp at hc
    · have hcase : c ∈ old.children ∨ (i = parent ∧ c = a.size) := by
        split at hc
        · rename_i hp
          simp only [Slot.addChild, Array.mem_push] at hc
          exact hc.imp_right fun hc => ⟨hp, hc⟩
        · exact .inl hc
      rcases hcase with hc | ⟨rfl, rfl⟩
      · obtain ⟨cs, hcs, hparent⟩ := hl.named i old hold c hc
        refine ⟨_, getElem?_add_of_some h hcs kind attributes, ?_⟩
        split <;> exact hparent
      · exact ⟨_, by rw [getElem?_add h, if_pos rfl], rfl⟩

theorem getElem?_setAttribute (a : Arena) (id : Nat) (key : String) (value : AttrValue) (i : Nat) :
    (a.setAttribute id key value).slots[i]? = a.slots[i]?.map fun s =>
      if i = id then { s with attributes := s.attributes.insert key value } else s := by
  simp only [setAttribute, Array.getElem?_modify]
  by_cases h : id = i
  · simp [h]
  · simp [h, Ne.symm h]

theorem linked_setAttribute {a : Arena} (hl : a.Linked) (id : Nat) (key : String)
    (value : AttrValue) : (a.setAttribute id key value).Linked where
  root_parent := by
    intro s hs
    rw [getElem?_setAttribute] at hs
    obtain ⟨old, hold, rfl⟩ := Option.map_eq_some_iff.1 hs
    have hparent := hl.root_parent old hold
    split <;> exact hparent
  listed_once := by
    intro i s hi hs
    rw [getElem?_setAttribute] at hs
    obtain ⟨old, hold, rfl⟩ := Option.map_eq_some_iff.1 hs
    obtain ⟨p, ps, hp, hps, hcount⟩ := hl.listed_once i old hi hold
    refine ⟨p, _, ?_, by rw [getElem?_setAttribute, hps, Option.map_some], ?_⟩
    · split <;> exact hp
    · split <;> exact hcount
  named := by
    intro i s hs c hc
    rw [getElem?_setAttribute] at hs
    obtain ⟨old, hold, rfl⟩ := Option.map_eq_some_iff.1 hs
    have hold_mem : c ∈ old.children := by
      split at hc <;> exact hc
    obtain ⟨cs, hcs, hparent⟩ := hl.named i old hold c hold_mem
    refine ⟨_, by rw [getElem?_setAttribute, hcs, Option.map_some], ?_⟩
    split <;> exact hparent

end Arena

/-- Every reachable builder is linked. -/
theorem Builder.Reachable.linked {b : Builder} (h : b.Reachable) : b.arena.Linked := by
  induction h with
  | start kind attributes => exact Arena.linked_single kind attributes
  | @add b parent _ issued kind attributes ih =>
    rw [add_eq issued]
    exact Arena.linked_add b.ordered ih issued kind attributes
  | @setAttribute b id _ _ key value ih => exact Arena.linked_setAttribute ih id key value

theorem Tree.Built.linked {t : Tree} (h : t.Built) : t.arena.Linked := by
  obtain ⟨b, hreach, hfinish⟩ := h
  rw [(Builder.finish_eq_ok_iff.1 hfinish).2]
  exact hreach.linked

/-! ## Section 3: Nodes of a linked tree -/

namespace Cursor

theorem eq_of_index_eq {m n : Cursor} (ht : m.tree = n.tree) (hi : m.index = n.index) : m = n := by
  obtain ⟨t, i, hm⟩ := m
  obtain ⟨t', j, hn⟩ := n
  obtain rfl : t = t' := ht
  obtain rfl : i = j := hi
  rfl

theorem mem_children_iff {n c : Cursor} :
    c ∈ n.children ↔ c.tree = n.tree ∧ c.index ∈ n.slot.children := by
  unfold children
  constructor
  · intro h
    obtain ⟨⟨i, hi⟩, -, rfl⟩ := List.mem_map.1 h
    exact ⟨rfl, Array.mem_toList_iff.1 hi⟩
  · rintro ⟨ht, hi⟩
    refine List.mem_map.2 ⟨⟨c.index, Array.mem_toList_iff.2 hi⟩, List.mem_attach _ _, ?_⟩
    exact eq_of_index_eq ht.symm rfl

theorem tree_of_mem_children {n c : Cursor} (h : c ∈ n.children) : c.tree = n.tree :=
  (mem_children_iff.1 h).1

theorem map_index_children (n : Cursor) : n.children.map (·.index) = n.slot.children.toList := by
  rw [children, List.map_map]
  show n.slot.children.toList.attach.map Subtype.val = _
  exact List.attach_map_subtype_val _

/-- The slot of a child names the node. -/
theorem parent_of_mem_children {n c : Cursor} (hl : n.tree.arena.Linked) (h : c ∈ n.children) :
    c.slot.parent = some n.index := by
  obtain ⟨ht, hi⟩ := mem_children_iff.1 h
  obtain ⟨cs, hcs, hparent⟩ := hl.named n.index n.slot n.slot_eq c.index hi
  have hslot := c.slot_eq
  rw [ht, hcs, Option.some.injEq] at hslot
  rw [← hslot]
  exact hparent

theorem parent?_eq_some {c : Cursor} {p : Nat} (h : c.slot.parent = some p) :
    c.parent? = some ⟨c.tree, p, Nat.lt_trans (c.parent_below h) c.index_lt⟩ := by
  unfold parent?
  split
  · rename_i q hq
    obtain rfl : q = p := Option.some.inj (hq.symm.trans h)
    rfl
  · rename_i hnone
    rw [hnone] at h
    cases h

/-- The parent of a child is the node. -/
theorem parent?_of_mem_children {n c : Cursor} (hl : n.tree.arena.Linked) (h : c ∈ n.children) :
    c.parent? = some n := by
  have htree : c.tree = n.tree := tree_of_mem_children h
  rw [parent?_eq_some (parent_of_mem_children hl h), Option.some.injEq]
  exact eq_of_index_eq htree rfl

/-- No node is listed twice by its parent. -/
theorem nodup_children {n : Cursor} (hl : n.tree.arena.Linked) : n.children.Nodup := by
  apply List.Nodup.of_map (·.index)
  rw [map_index_children, List.nodup_iff_count_eq_one]
  intro i hi
  have hi' : i ∈ n.slot.children := Array.mem_toList_iff.1 hi
  obtain ⟨cs, hcs, hparent⟩ := hl.named n.index n.slot n.slot_eq i hi'
  have hpos : 0 < i := Nat.lt_of_le_of_lt (Nat.zero_le _) (n.child_above hi').1
  obtain ⟨p, ps, hp, hps, hcount⟩ := hl.listed_once i cs hpos hcs
  -- The slot that lists `i` once is the node's own.
  rw [hparent, Option.some.injEq] at hp
  rw [← hp, n.slot_eq, Option.some.injEq] at hps
  rw [hps, Array.count_toList]
  exact hcount

/-! ## Section 4: Subtrees -/

/-- The subtree at `n` contains `m`: child links lead from `n` to `m`. -/
def Contains (n m : Cursor) : Prop := Relation.ReflTransGen (fun a b => b ∈ a.children) n m

theorem Contains.tree_eq {n m : Cursor} (h : n.Contains m) : m.tree = n.tree := by
  induction h with
  | refl => rfl
  | tail _ hc ih => exact (tree_of_mem_children hc).trans ih

theorem index_lt_of_mem_children {n c : Cursor} (h : c ∈ n.children) : n.index < c.index :=
  (n.child_above (mem_children_iff.1 h).2).1

theorem Contains.index_le {n m : Cursor} (h : n.Contains m) : n.index ≤ m.index := by
  induction h with
  | refl => exact Nat.le_refl _
  | tail _ hc ih => exact Nat.le_trans ih (Nat.le_of_lt (index_lt_of_mem_children hc))

/-- Of two nodes with a common node below them, one lies below the other. -/
theorem Contains.comparable {a b m : Cursor} (hl : a.tree.arena.Linked) (ha : a.Contains m)
    (hb : b.Contains m) : a.Contains b ∨ b.Contains a := by
  -- Parents are unique, so the two ways down end in the same steps.
  induction ha with
  | refl => exact .inr hb
  | @tail p m hap hm ih =>
    rcases Relation.ReflTransGen.cases_tail hb with rfl | ⟨q, hbq, hmq⟩
    · exact .inl (hap.tail hm)
    · have htree : p.tree = a.tree := Contains.tree_eq hap
      have hq : q.tree = p.tree := (tree_of_mem_children hmq).symm.trans (tree_of_mem_children hm)
      have hp := parent?_of_mem_children (htree ▸ hl) hm
      have hp' := parent?_of_mem_children (hq ▸ htree ▸ hl) hmq
      obtain rfl : p = q := Option.some.inj (hp.symm.trans hp')
      exact ih hbq

/-- The nodes of the subtree, each before its children. -/
def preorder (n : Cursor) : List Cursor :=
  n :: n.children.attach.flatMap fun ⟨c, _⟩ => c.preorder
termination_by n.rank
decreasing_by
  rename_i h
  exact rank_lt_of_mem_children h

theorem preorder_eq (n : Cursor) : n.preorder = n :: n.children.flatMap preorder := by
  rw [preorder]
  simp

/-- The preorder lists exactly the nodes of the subtree. -/
theorem mem_preorder {n m : Cursor} : m ∈ n.preorder ↔ n.Contains m := by
  induction n using children_induction with
  | step n ih =>
    rw [preorder_eq, List.mem_cons, List.mem_flatMap]
    constructor
    · rintro (rfl | ⟨c, hc, hm⟩)
      · exact .refl
      · exact Relation.ReflTransGen.head hc ((ih c hc).1 hm)
    · intro h
      rcases Relation.ReflTransGen.cases_head h with rfl | ⟨c, hc, hm⟩
      · exact .inl rfl
      · exact .inr ⟨c, hc, (ih c hc).2 hm⟩

/-- Subtrees of two children have no node in common. -/
theorem disjoint_preorder_of_mem_children {n c d : Cursor} (hl : n.tree.arena.Linked)
    (hc : c ∈ n.children) (hd : d ∈ n.children) (hne : c ≠ d) :
    c.preorder.Disjoint d.preorder := by
  -- If one child contained the other, it would contain the parent of both.
  have key : ∀ {a b : Cursor}, a ∈ n.children → b ∈ n.children → a ≠ b → ¬a.Contains b := by
    intro a b ha hb hab h
    rcases Relation.ReflTransGen.cases_tail h with rfl | ⟨p, hap, hp⟩
    · exact hab rfl
    · have htree : p.tree = n.tree :=
        (tree_of_mem_children hp).symm.trans (tree_of_mem_children hb)
      have hpar := parent?_of_mem_children (htree ▸ hl) hp
      obtain rfl : p = n := Option.some.inj (hpar.symm.trans (parent?_of_mem_children hl hb))
      have hle := Contains.index_le hap
      have hlt := index_lt_of_mem_children ha
      omega
  intro m hmc hmd
  have htree : c.tree = n.tree := tree_of_mem_children hc
  rcases Contains.comparable (htree ▸ hl) (mem_preorder.1 hmc) (mem_preorder.1 hmd) with h | h
  · exact key hc hd hne h
  · exact key hd hc (Ne.symm hne) h

/-- On the way down from a node no node is met twice. -/
theorem nodup_preorder {n : Cursor} (hl : n.tree.arena.Linked) : n.preorder.Nodup := by
  induction n using children_induction with
  | step n ih =>
    rw [preorder_eq, List.nodup_cons, List.nodup_flatMap]
    refine ⟨?_, ?_, ?_⟩
    · -- Numbers grow on the way down, so the node is not below itself.
      intro hmem
      obtain ⟨c, hc, hn⟩ := List.mem_flatMap.1 hmem
      have hle := Contains.index_le (mem_preorder.1 hn)
      have hlt := index_lt_of_mem_children hc
      omega
    · intro c hc
      have htree : c.tree = n.tree := tree_of_mem_children hc
      exact ih c hc (htree ▸ hl)
    · exact (nodup_children hl).pairwise_of_forall_ne
        fun c hc d hd hne => disjoint_preorder_of_mem_children hl hc hd hne

end Cursor

/-! ## Section 5: The whole tree -/

/-- Every node lies below the root. -/
theorem Tree.root_contains {t : Tree} (hl : t.arena.Linked) (m : Cursor) (hm : m.tree = t) :
    t.root.Contains m := by
  induction h : m.index using Nat.strongRecOn generalizing m with
  | _ i ih =>
    by_cases hzero : i = 0
    · obtain rfl : t.root = m := Cursor.eq_of_index_eq hm.symm (h.trans hzero).symm
      exact .refl
    · -- The parent has a smaller number and lists the node.
      have hpos : 0 < m.index := by omega
      subst hm
      obtain ⟨p, ps, hp, hps, hcount⟩ := hl.listed_once m.index m.slot hpos m.slot_eq
      let q : Cursor := ⟨m.tree, p, Nat.lt_trans (m.parent_below hp) m.index_lt⟩
      have hq : q.slot = ps := Option.some.inj (q.slot_eq.symm.trans hps)
      have hmem : m ∈ q.children := by
        refine Cursor.mem_children_iff.2 ⟨rfl, ?_⟩
        rw [hq]
        exact Array.count_pos_iff.1 (by omega)
      exact (ih p (h ▸ m.parent_below hp) q rfl rfl).tail hmem

/-- The preorder of the root numbers all nodes of the tree. -/
theorem Tree.perm_preorder_root {t : Tree} (hl : t.arena.Linked) :
    (t.root.preorder.map (·.index)).Perm (List.range t.size) := by
  refine (List.perm_ext_iff_of_nodup ?_ List.nodup_range).2 ?_
  · refine (Cursor.nodup_preorder hl).map_on ?_
    intro m hm n hn heq
    have htree := Cursor.Contains.tree_eq (Cursor.mem_preorder.1 hm)
    exact Cursor.eq_of_index_eq (htree.trans (Cursor.mem_preorder.1 hn).tree_eq.symm) heq
  · intro i
    rw [List.mem_map, List.mem_range]
    constructor
    · rintro ⟨m, hm, rfl⟩
      have htree : m.tree = t := Cursor.Contains.tree_eq (Cursor.mem_preorder.1 hm)
      exact htree ▸ m.index_lt
    · intro hi
      exact ⟨⟨t, i, hi⟩, Cursor.mem_preorder.2 (root_contains hl _ rfl), rfl⟩

theorem Tree.length_preorder_root {t : Tree} (hl : t.arena.Linked) :
    t.root.preorder.length = t.size := by
  have h := (perm_preorder_root hl).length_eq
  rw [List.length_map, List.length_range] at h
  exact h

/-! ## Section 6: A tree built out of order -/

/-- Two classes beside each other, the first one with a class inside.  The
    inner class is added before the second class, so that the ids are not in
    level order, and gets its name last. -/
def Builder.twoClasses : Builder :=
  (((new.add 0 (.type .class) .empty).add 1 (.type .class) .empty).add 0 (.type .class)
    (Attributes.empty.insert Key.name (.text "Inner"))).setAttribute 2 Key.name (.text "Inner")

theorem Builder.reachable_twoClasses : twoClasses.Reachable := by
  have h₁ : (new.add 0 (.type .class) .empty).Reachable := .add (.start _ _) (by decide) _ _
  have h₂ : ((new.add 0 (.type .class) .empty).add 1 (.type .class) .empty).Reachable :=
    .add h₁ (by decide) _ _
  exact .setAttribute (.add h₂ (by decide) _ _) (by decide) _ _

/-- The tree of `Builder.twoClasses`. -/
def Tree.twoClasses : Tree := ⟨Builder.twoClasses.arena, Builder.twoClasses.ordered, by decide⟩

theorem Builder.finish_twoClasses : twoClasses.finish = .ok Tree.twoClasses :=
  finish_eq_ok_iff.2 ⟨by decide, rfl⟩

theorem Tree.built_twoClasses : twoClasses.Built :=
  ⟨Builder.twoClasses, Builder.reachable_twoClasses, Builder.finish_twoClasses⟩

end JavaTree
