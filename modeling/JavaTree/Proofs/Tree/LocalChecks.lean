import JavaTree.Proofs.Tree.Validation
import Mathlib.Data.Fintype.Card
import Mathlib.Data.Fintype.Fin

/-! # What the checks of single slots leave open

    Validation looks at one slot at a time: its parent lists it exactly once,
    its kind accepts what it lists, and it lists enough.  Here is what that
    makes of an arbitrary arena, not only of one that a builder filled with
    its own ids.  `Arena.IsTree` says that the slots are a single tree below
    slot zero.

    Two things are left open.  A slot may be listed by others than its parent
    (`Arena.Mirrored` excludes that), and parents may run in a circle, away
    from the root (`Arena.Acyclic`).  Nothing else is: the main statement is
    `Arena.isTree_iff_of_validate`.  Both faults do pass validation, and the
    second one is what comes of adding a slot below its own number
    (`Arena.validate_accepts_faults`). -/

namespace JavaTree

namespace Arena

/-! ## Section 1: Links and trees -/

/-- A slot names another one as its parent. -/
def NamesParent (a : Arena) (i p : Nat) : Prop := ∃ s, a.slots[i]? = some s ∧ s.parent = some p

/-- A slot lists another one as a child. -/
def Lists (a : Arena) (p i : Nat) : Prop := ∃ s, a.slots[p]? = some s ∧ i ∈ s.children

/-- All links lead to slots. -/
structure InRange (a : Arena) : Prop where
  /-- Parents are slots. -/
  parent_lt : ∀ i p, a.NamesParent i p → p < a.size
  /-- Children are slots. -/
  child_lt : ∀ p i, a.Lists p i → i < a.size

/-- What a slot lists names it as its parent. -/
def Mirrored (a : Arena) : Prop := ∀ p i, a.Lists p i → a.NamesParent i p

/-- No chain of parents leads back to its start. -/
def Acyclic (a : Arena) : Prop := ∀ i, ¬Relation.TransGen a.NamesParent i i

/-- The slot reached by taking the child at each position in turn. -/
def descend? (a : Arena) (i : Nat) : List Nat → Option Nat
  | [] => some i
  | j :: path => (a.slots[i]?.bind (·.children[j]?)).bind (a.descend? · path)

/-- The slots are a single tree, and slot zero is its root. -/
structure IsTree (a : Arena) : Prop where
  /-- There is a root. -/
  nonempty : 0 < a.size
  /-- Parents do not run in a circle. -/
  acyclic : a.Acyclic
  /-- Exactly one path of child links leads from the root to each slot. -/
  path : ∀ i < a.size, ∃! path, a.descend? 0 path = some i
  /-- The parent of a slot is the one slot that lists it. -/
  parent : ∀ i < a.size, ∀ p, a.NamesParent i p ↔ a.Lists p i

theorem descend?_append (a : Arena) (i : Nat) (path rest : List Nat) :
    a.descend? i (path ++ rest) = (a.descend? i path).bind (a.descend? · rest) := by
  induction path generalizing i with
  | nil => rfl
  | cons j path ih =>
    rw [List.cons_append, descend?, descend?]
    cases a.slots[i]?.bind (·.children[j]?) with
    | none => rfl
    | some c => exact ih c

/-- A path that takes a last step comes from a slot that lists its end. -/
theorem descend?_concat_eq_some {a : Arena} {i j k : Nat} {path : List Nat} :
    a.descend? i (path ++ [j]) = some k ↔
      ∃ p s, a.descend? i path = some p ∧ a.slots[p]? = some s ∧ s.children[j]? = some k := by
  rw [descend?_append]
  constructor
  · intro h
    obtain ⟨p, hp, hstep⟩ := Option.bind_eq_some_iff.1 h
    obtain ⟨c, hc, hend⟩ := Option.bind_eq_some_iff.1 hstep
    obtain ⟨s, hs, hchild⟩ := Option.bind_eq_some_iff.1 hc
    exact ⟨p, s, hp, hs, hchild.trans hend⟩
  · rintro ⟨p, s, hp, hs, hchild⟩
    rw [hp, Option.bind_some, descend?, hs, Option.bind_some, hchild]
    rfl

/-! ## Section 2: What validation guarantees -/

/-- What validation guarantees about the links of any arena. -/
structure Checked (a : Arena) : Prop where
  /-- There is a root, and it has no parent. -/
  root : ∃ s, a.slots[0]? = some s ∧ s.parent = none
  /-- Every other slot is listed exactly once by its parent. -/
  listed_once : ∀ (i : Nat) (s : Slot), 0 < i → a.slots[i]? = some s →
    ∃ (p : Nat) (ps : Slot), s.parent = some p ∧ a.slots[p]? = some ps ∧ ps.children.count i = 1
  /-- Only slots are listed, and never the root. -/
  listed_pos : ∀ p i, a.Lists p i → 0 < i ∧ i < a.size

theorem isLinked_eq_true_iff {a : Arena} {i : Nat} {s : Slot} :
    a.isLinked i s = true ↔
      ∃ (p : Nat) (ps : Slot), s.parent = some p ∧ a.slots[p]? = some ps ∧
        ps.children.count i = 1 := by
  unfold isLinked
  constructor
  · intro h
    split at h
    · rename_i ps hps
      obtain ⟨p, hp, hslot⟩ := Option.bind_eq_some_iff.1 hps
      exact ⟨p, ps, hp, hslot, by simpa using h⟩
    · cases h
  · rintro ⟨p, ps, hp, hslot, hcount⟩
    rw [hp, Option.bind_some, hslot]
    simpa using hcount

/-- A slot without violation is linked, and its kind accepts all that it
    lists. -/
theorem of_violation?_eq_none {a : Arena} {i : Nat} {s : Slot} (h : a.violation? i s = none) :
    (0 < i → a.isLinked i s = true) ∧
      ∀ c ∈ s.children, ∃ cs, a.slots[c]? = some cs ∧ s.kind.accepts cs.kind = true := by
  unfold violation? at h
  split at h
  · cases h
  · rename_i hlinked
    split at h
    · cases h
    · rename_i hmisplaced
      refine ⟨fun hi => by simpa [hi] using hlinked, ?_⟩
      intro c hc
      have hnone := List.findSome?_eq_none_iff.1 hmisplaced c (Array.mem_toList_iff.2 hc)
      split at hnone
      · rename_i cs hcs
        exact ⟨cs, hcs, by simpa using hnone⟩
      · cases hnone

theorem checked_of_validate {a : Arena} (h : a.validate = .ok ()) : a.Checked := by
  obtain ⟨root, hroot, hkind, hparent, hslots⟩ := of_validate_eq_ok h
  refine ⟨⟨root, hroot, hparent⟩, ?_, ?_⟩
  · intro i s hi hs
    exact isLinked_eq_true_iff.1 ((of_violation?_eq_none (hslots i s hs)).1 hi)
  · rintro p i ⟨s, hs, hi⟩
    obtain ⟨cs, hcs, haccepts⟩ := (of_violation?_eq_none (hslots p s hs)).2 i hi
    refine ⟨Nat.pos_of_ne_zero ?_, lt_size hcs⟩
    -- A compilation unit is accepted nowhere.
    rintro rfl
    obtain rfl := Option.some.inj (hroot.symm.trans hcs)
    rw [hkind] at haccepts
    simp [Kind.accepts] at haccepts

/-! ## Section 3: Paths from the root -/

namespace Checked

variable {a : Arena}

/-- A parent lists the slot that names it. -/
theorem lists_of_namesParent (h : a.Checked) {i p : Nat} (hi : a.NamesParent i p) :
    a.Lists p i := by
  obtain ⟨s, hs, hp⟩ := hi
  obtain ⟨root, hroot, hnone⟩ := h.root
  have hpos : 0 < i := by
    apply Nat.pos_of_ne_zero
    rintro rfl
    obtain rfl := Option.some.inj (hroot.symm.trans hs)
    rw [hnone] at hp
    cases hp
  obtain ⟨q, qs, hq, hqs, hcount⟩ := h.listed_once i s hpos hs
  obtain rfl : q = p := Option.some.inj (hq.symm.trans hp)
  exact ⟨qs, hqs, Array.count_pos_iff.1 (by omega)⟩

/-- If what a slot lists names it, then nothing is listed twice. -/
theorem nodup_children (h : a.Checked) (hmirrored : a.Mirrored) {p : Nat} {s : Slot}
    (hs : a.slots[p]? = some s) : s.children.toList.Nodup := by
  rw [List.nodup_iff_count_eq_one]
  intro i hi
  have hlists : a.Lists p i := ⟨s, hs, Array.mem_toList_iff.1 hi⟩
  obtain ⟨cs, hcs, hparent⟩ := hmirrored p i hlists
  obtain ⟨q, qs, hq, hqs, hcount⟩ := h.listed_once i cs (h.listed_pos p i hlists).1 hcs
  obtain rfl : q = p := Option.some.inj (hq.symm.trans hparent)
  obtain rfl := Option.some.inj (hqs.symm.trans hs)
  rw [Array.count_toList]
  exact hcount

/-- The last step of a path is the only one that leads to its end. -/
theorem last_step (h : a.Checked) (hmirrored : a.Mirrored) {i p : Nat}
    (hparent : a.NamesParent i p) {path : List Nat} (hpath : a.descend? 0 path = some i) :
    ∃ before j s, path = before ++ [j] ∧ a.descend? 0 before = some p ∧
      a.slots[p]? = some s ∧ s.children[j]? = some i := by
  rcases List.eq_nil_or_concat' path with rfl | ⟨before, j, rfl⟩
  · -- The root names no parent.
    have hzero : 0 = i := Option.some.inj hpath
    have hpos := (h.listed_pos p i (h.lists_of_namesParent hparent)).1
    omega
  · obtain ⟨q, s, hq, hs, hchild⟩ := descend?_concat_eq_some.1 hpath
    obtain ⟨cs, hcs, hnamed⟩ := hmirrored q i ⟨s, hs, Array.mem_of_getElem? hchild⟩
    obtain ⟨cs', hcs', hparent⟩ := hparent
    obtain rfl := Option.some.inj (hcs.symm.trans hcs')
    obtain rfl : q = p := Option.some.inj (hnamed.symm.trans hparent)
    exact ⟨before, j, s, rfl, hq, hs, hchild⟩

/-- From the root to a slot there is one path if there is one to its parent. -/
theorem existsUnique_path_of_parent (h : a.Checked) (hmirrored : a.Mirrored) {i p : Nat}
    (hparent : a.NamesParent i p) (hp : ∃! path, a.descend? 0 path = some p) :
    ∃! path, a.descend? 0 path = some i := by
  obtain ⟨path, hpath, hunique⟩ := hp
  obtain ⟨s, hs, hi⟩ := h.lists_of_namesParent hparent
  obtain ⟨j, hj⟩ := Array.getElem?_of_mem hi
  refine ⟨path ++ [j], descend?_concat_eq_some.2 ⟨p, s, hpath, hs, hj⟩, ?_⟩
  intro other hother
  obtain ⟨before, k, s', rfl, hbefore, hs', hk⟩ := h.last_step hmirrored hparent hother
  obtain rfl := Option.some.inj (hs.symm.trans hs')
  -- The slot stands at one place in the list of its parent.
  rw [← Array.getElem?_toList] at hj hk
  have hlt : k < s.children.toList.length := (List.getElem?_eq_some_iff.1 hk).1
  have hkj : k = j :=
    (List.getElem?_inj hlt (h.nodup_children hmirrored hs)).1 (hk.trans hj.symm)
  rw [hunique before hbefore, hkj]

theorem existsUnique_path_root (h : a.Checked) : ∃! path, a.descend? 0 path = some 0 := by
  refine ⟨[], rfl, ?_⟩
  intro path hpath
  rcases List.eq_nil_or_concat' path with rfl | ⟨before, j, rfl⟩
  · rfl
  · obtain ⟨q, s, -, hs, hchild⟩ := descend?_concat_eq_some.1 hpath
    have hpos := (h.listed_pos q 0 ⟨s, hs, Array.mem_of_getElem? hchild⟩).1
    omega

end Checked

/-- Where parents do not run in a circle, one climbs to the root in the end. -/
theorem Acyclic.wellFounded {a : Arena} (h : a.Acyclic) :
    WellFounded fun p i : Fin a.size => Relation.TransGen a.NamesParent i p := by
  have htrans : IsTrans (Fin a.size) fun p i => Relation.TransGen a.NamesParent i p :=
    ⟨fun _ _ _ hpq hqr => hqr.trans hpq⟩
  have hirrefl : Std.Irrefl fun p i : Fin a.size => Relation.TransGen a.NamesParent i p :=
    ⟨fun i => h i⟩
  exact Finite.wellFounded_of_trans_of_irrefl _

theorem Checked.existsUnique_path {a : Arena} (h : a.Checked) (hmirrored : a.Mirrored)
    (hacyclic : a.Acyclic) (i : Fin a.size) : ∃! path, a.descend? 0 path = some i.val := by
  induction i using hacyclic.wellFounded.induction with
  | _ i ih =>
    by_cases hi : i.val = 0
    · rw [hi]
      exact h.existsUnique_path_root
    · obtain ⟨s, hs⟩ : ∃ s, a.slots[i.val]? = some s := ⟨_, Array.getElem?_eq_getElem i.isLt⟩
      obtain ⟨p, ps, hp, hps, -⟩ := h.listed_once i s (by omega) hs
      have hparent : a.NamesParent i p := ⟨s, hs, hp⟩
      exact h.existsUnique_path_of_parent hmirrored hparent (ih ⟨p, lt_size hps⟩ (.single hparent))

/-- With links that agree and end at the root, a checked arena is a tree. -/
theorem Checked.isTree {a : Arena} (h : a.Checked) (hmirrored : a.Mirrored)
    (hacyclic : a.Acyclic) : a.IsTree := by
  obtain ⟨root, hroot, -⟩ := h.root
  refine ⟨lt_size hroot, hacyclic, ?_, ?_⟩
  · intro i hi
    exact h.existsUnique_path hmirrored hacyclic ⟨i, hi⟩
  · intro i _ p
    exact ⟨h.lists_of_namesParent, hmirrored p i⟩

theorem Linked.mirrored {a : Arena} (h : a.Linked) : a.Mirrored := by
  rintro p i ⟨s, hs, hi⟩
  exact h.named p s hs i hi

/-- Where parents have smaller numbers, they do not run in a circle. -/
theorem acyclic_of_below {a : Arena} (h : ∀ i p, a.NamesParent i p → p < i) : a.Acyclic := by
  have hbelow : ∀ i p, Relation.TransGen a.NamesParent i p → p < i := by
    intro i p hp
    induction hp with
    | single hnames => exact h i _ hnames
    | tail _ hnames ih => exact Nat.lt_trans (h _ _ hnames) ih
  intro i hi
  exact absurd (hbelow i i hi) (Nat.lt_irrefl i)

theorem Ordered.acyclic {a : Arena} (h : a.Ordered) : a.Acyclic := by
  apply acyclic_of_below
  rintro i p ⟨s, hs, hp⟩
  exact h.parent_below i s hs p hp

end Arena

/-- A tree that was built with issued ids is a tree. -/
theorem Tree.Built.isTree {t : Tree} (h : t.Built) : t.arena.IsTree :=
  (Arena.checked_of_validate t.valid).isTree h.linked.mirrored t.ordered.acyclic

namespace Arena

/-! ## Section 4: Main statement -/

/-- A validated arena is a single tree below slot zero exactly if every slot is
    named as parent by what it lists, and parents do not run in a circle. -/
theorem isTree_iff_of_validate {a : Arena} (h : a.validate = .ok ()) :
    a.IsTree ↔ a.Mirrored ∧ a.Acyclic := by
  have hchecked := checked_of_validate h
  constructor
  · intro htree
    refine ⟨?_, htree.acyclic⟩
    intro p i hlists
    exact (htree.parent i (hchecked.listed_pos p i hlists).2 p).2 hlists
  · rintro ⟨hmirrored, hacyclic⟩
    exact hchecked.isTree hmirrored hacyclic

theorem isTree_iff_of_validate_twoClasses :
    Tree.twoClasses.arena.validate = .ok () ∧ Tree.twoClasses.arena.IsTree :=
  ⟨Tree.twoClasses.valid, (isTree_iff_of_validate Tree.twoClasses.valid).2
    ⟨Tree.built_twoClasses.linked.mirrored, Tree.twoClasses.ordered.acyclic⟩⟩

/-! ## Section 5: Faults that pass -/

/-- Below an empty compilation unit, a class added below its own number. -/
def selfParented : Arena := (single .compilationUnit .empty).add 1 (.type .class) .empty

/-- Two classes that list one class. -/
def twiceListed : Arena :=
  ⟨#[⟨.compilationUnit, .empty, #[1, 2], none⟩, ⟨.type .class, .empty, #[3], some 0⟩,
    ⟨.type .class, .empty, #[3], some 0⟩, ⟨.type .class, .empty, #[], some 1⟩]⟩

/-- Whether links are in range is told by looking at the slots one by one. -/
theorem inRange_of_slots {a : Arena}
    (h : ∀ i : Fin a.slots.size, (∀ p ∈ a.slots[i].parent, p < a.size) ∧
      ∀ c ∈ a.slots[i].children.toList, c < a.size) : a.InRange := by
  refine ⟨?_, ?_⟩
  · rintro i p ⟨s, hs, hp⟩
    obtain ⟨hlt, rfl⟩ := Array.getElem?_eq_some_iff.1 hs
    exact (h ⟨i, hlt⟩).1 p hp
  · rintro p i ⟨s, hs, hi⟩
    obtain ⟨hlt, rfl⟩ := Array.getElem?_eq_some_iff.1 hs
    exact (h ⟨p, hlt⟩).2 i (Array.mem_toList_iff.2 hi)

/-- Each of the two faults passes validation alone: a class that is its own
    parent and child, out of reach of the root, and a class with two paths from
    the root. -/
theorem validate_accepts_faults :
    (selfParented.InRange ∧ selfParented.validate = .ok () ∧ selfParented.Mirrored ∧
      ¬selfParented.IsTree) ∧
    (twiceListed.InRange ∧ twiceListed.validate = .ok () ∧ twiceListed.Acyclic ∧
      ¬twiceListed.IsTree) := by
  refine ⟨⟨inRange_of_slots (by decide), by decide, ?_, ?_⟩,
    ⟨inRange_of_slots (by decide), by decide, ?_, ?_⟩⟩
  · have hlisted : ∀ p : Fin selfParented.slots.size,
        ∀ c ∈ selfParented.slots[p].children.toList, c = 1 ∧ p.val = 1 := by decide
    rintro p i ⟨s, hs, hi⟩
    obtain ⟨hlt, rfl⟩ := Array.getElem?_eq_some_iff.1 hs
    obtain ⟨rfl, rfl⟩ := hlisted ⟨p, hlt⟩ i (Array.mem_toList_iff.2 hi)
    exact ⟨_, rfl, rfl⟩
  · intro htree
    exact htree.acyclic 1 (.single ⟨_, rfl, rfl⟩)
  · have hbelow : ∀ i : Fin twiceListed.slots.size,
        ∀ p ∈ twiceListed.slots[i].parent, p < i.val := by decide
    apply acyclic_of_below
    rintro i p ⟨s, hs, hp⟩
    obtain ⟨hlt, rfl⟩ := Array.getElem?_eq_some_iff.1 hs
    exact hbelow ⟨i, hlt⟩ p hp
  · intro htree
    have hpaths : [0, 0] = [1, 0] := (htree.path 3 (by decide)).unique rfl rfl
    exact absurd hpaths (by decide)

end Arena

end JavaTree
