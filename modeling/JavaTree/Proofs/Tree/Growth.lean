import JavaTree.Proofs.Statistics.Counts
import JavaTree.Proofs.Tree.Validation

/-! # Builders in use

    A builder is used through calls, each with an id that the builder gave
    out before.  A `Builder.Session` is a builder together with these ids, and
    `Session.Consistent` is what every call preserves: the builder is
    reachable and the ids are the numbers of its nodes.

    Parent links and child lists are two records of one tree.  `Arena.Grown`
    says how they agree after every call, and `Builder.Call.Changes` what a
    call leaves alone.  Of the finished tree it follows that a node has one
    path from the root (`Cursor.descend?_unique`) and is counted once
    (`Cursor.countNodes_eq`).

    The main statement is `Builder.calls_keep_tree`. -/

namespace JavaTree

/-! ## Section 1: Calls -/

namespace Builder

/-- A call that changes a builder. -/
inductive Call where
  /-- Add a node at the end of the children of `parent`. -/
  | add (parent : Nat) (kind : Kind) (attributes : Attributes)
  /-- Put an attribute at a node. -/
  | setAttribute (id : Nat) (key : String) (value : AttrValue)

/-- The id that a call is given. -/
def Call.target : Call → Nat
  | .add parent _ _ => parent
  | .setAttribute id _ _ => id

/-- A builder in use. -/
structure Session where
  /-- The builder. -/
  builder : Builder
  /-- The ids it has issued, first one first. -/
  issued : List Nat

namespace Session

/-- A new builder has issued the id of its root. -/
def start (kind : Kind) (attributes : Attributes) : Session := ⟨withRoot kind attributes, [0]⟩

/-- Make a call.  The id of a new node is the number of nodes before it. -/
def call (s : Session) : Call → Session
  | .add parent kind attributes =>
    ⟨s.builder.add parent kind attributes, s.issued ++ [s.builder.size]⟩
  | .setAttribute id key value => ⟨s.builder.setAttribute id key value, s.issued⟩

/-- Make calls one after the other. -/
def run (s : Session) (calls : List Call) : Session := calls.foldl call s

/-- Every call is given an id that was issued before it. -/
def Allows (s : Session) : List Call → Prop
  | [] => True
  | c :: cs => c.target ∈ s.issued ∧ (s.call c).Allows cs

/-- The builder was made with issued ids only, and these are the numbers of
    its nodes. -/
structure Consistent (s : Session) : Prop where
  /-- Only issued ids were used. -/
  reachable : s.builder.Reachable
  /-- The issued ids number the nodes. -/
  issued_eq : s.issued = List.range s.builder.size

theorem consistent_start (kind : Kind) (attributes : Attributes) :
    (start kind attributes).Consistent :=
  ⟨.start kind attributes, rfl⟩

theorem Consistent.lt_size {s : Session} (h : s.Consistent) {id : Nat} (hid : id ∈ s.issued) :
    id < s.builder.size := by
  rw [h.issued_eq] at hid
  exact List.mem_range.1 hid

theorem Consistent.call {s : Session} (h : s.Consistent) {c : Call} (hc : c.target ∈ s.issued) :
    (s.call c).Consistent := by
  cases c with
  | add parent kind attributes =>
    have hlt : parent < s.builder.size := h.lt_size hc
    refine ⟨h.reachable.add hlt kind attributes, ?_⟩
    have hsize := s.builder.size_add hlt kind attributes
    show s.issued ++ [s.builder.size] = List.range (s.builder.add parent kind attributes).size
    rw [hsize, List.range_succ, h.issued_eq]
  | setAttribute id key value =>
    refine ⟨h.reachable.setAttribute (h.lt_size hc) key value, ?_⟩
    have hsize : (s.builder.setAttribute id key value).size = s.builder.size :=
      Arena.size_setAttribute s.builder.arena id key value
    show s.issued = List.range (s.builder.setAttribute id key value).size
    rw [hsize]
    exact h.issued_eq

theorem Consistent.run {s : Session} (h : s.Consistent) {calls : List Call}
    (hcalls : s.Allows calls) : (s.run calls).Consistent := by
  induction calls generalizing s with
  | nil => exact h
  | cons c cs ih => exact ih (h.call hcalls.1) hcalls.2

end Session

end Builder

/-! ## Section 2: Links of a growing arena -/

namespace Arena

/-- Later children have larger numbers. -/
def Increasing (a : Arena) : Prop :=
  ∀ (i : Nat) (s : Slot), a.slots[i]? = some s → s.children.toList.Pairwise (· < ·)

theorem increasing_single (kind : Kind) (attributes : Attributes) :
    (single kind attributes).Increasing := by
  intro i s hs
  have hlt := lt_size hs
  simp only [single, size, List.size_toArray, List.length_singleton] at hlt
  obtain rfl : i = 0 := by omega
  simp only [single, List.getElem?_toArray, List.getElem?_cons_zero, Option.some.injEq] at hs
  rw [← hs]
  exact .nil

theorem increasing_add {a : Arena} (ho : a.Ordered) (hi : a.Increasing) {parent : Nat}
    (h : parent < a.size) (kind : Kind) (attributes : Attributes) :
    (a.add parent kind attributes).Increasing := by
  intro i s hs
  rcases getElem?_add_cases h hs with ⟨rfl, rfl⟩ | ⟨old, hold, rfl⟩
  · exact .nil
  · have hincreasing := hi i old hold
    split
    · -- The new number is larger than all that were issued before.
      show (old.children.push a.size).toList.Pairwise (· < ·)
      rw [Array.toList_push, List.pairwise_append]
      refine ⟨hincreasing, List.pairwise_singleton _ _, ?_⟩
      intro c hc d hd
      rw [List.mem_singleton.1 hd]
      exact (ho.children_above i old hold c (Array.mem_toList_iff.1 hc)).2
    · exact hincreasing

theorem increasing_setAttribute {a : Arena} (hi : a.Increasing) (id : Nat) (key : String)
    (value : AttrValue) : (a.setAttribute id key value).Increasing := by
  intro i s hs
  rw [getElem?_setAttribute] at hs
  obtain ⟨old, hold, rfl⟩ := Option.map_eq_some_iff.1 hs
  have hincreasing := hi i old hold
  split <;> exact hincreasing

/-- How the two records of the links agree in an arena that was filled node by
    node. -/
structure Grown (a : Arena) : Prop where
  /-- The first node has no parent. -/
  root : ∃ s, a.slots[0]? = some s ∧ s.parent = none
  /-- The parent of every other node has a smaller number.  It lists the node
      exactly once, and no other node lists it. -/
  listed : ∀ (i : Nat) (s : Slot), 0 < i → a.slots[i]? = some s →
    ∃ (p : Nat) (ps : Slot), s.parent = some p ∧ p < i ∧ a.slots[p]? = some ps ∧
      ps.children.count i = 1 ∧
      ∀ (q : Nat) (qs : Slot), a.slots[q]? = some qs → i ∈ qs.children → q = p
  /-- Only nodes are listed. -/
  children_lt : ∀ (i : Nat) (s : Slot), a.slots[i]? = some s → ∀ c ∈ s.children, c < a.size
  /-- Child lists are in insertion order. -/
  increasing : ∀ (i : Nat) (s : Slot), a.slots[i]? = some s → s.children.toList.Pairwise (· < ·)

end Arena

namespace Builder

theorem Reachable.increasing {b : Builder} (h : b.Reachable) : b.arena.Increasing := by
  induction h with
  | start kind attributes => exact Arena.increasing_single kind attributes
  | @add b parent _ issued kind attributes ih =>
    rw [add_eq issued]
    exact Arena.increasing_add b.ordered ih issued kind attributes
  | @setAttribute b id _ _ key value ih => exact Arena.increasing_setAttribute ih id key value

theorem Reachable.grown {b : Builder} (h : b.Reachable) : b.arena.Grown := by
  have hlinked := h.linked
  refine ⟨?_, ?_, ?_, h.increasing⟩
  · obtain ⟨s, hs⟩ : ∃ s, b.arena.slots[0]? = some s :=
      ⟨_, Array.getElem?_eq_getElem b.ordered.nonempty⟩
    exact ⟨s, hs, hlinked.root_parent s hs⟩
  · intro i s hi hs
    obtain ⟨p, ps, hp, hps, hcount⟩ := hlinked.listed_once i s hi hs
    refine ⟨p, ps, hp, b.ordered.parent_below i s hs p hp, hps, hcount, ?_⟩
    -- A node that lists `i` is the parent that `i` names.
    intro q qs hqs hmem
    obtain ⟨s', hs', hparent⟩ := hlinked.named q qs hqs i hmem
    obtain rfl := Option.some.inj (hs.symm.trans hs')
    exact Option.some.inj (hparent.symm.trans hp)
  · intro i s hs c hc
    exact (b.ordered.children_above i s hs c hc).2

/-! ## Section 3: What a call changes -/

/-- From `a` to `b` the call has changed what it is for and nothing else. -/
def Call.Changes (a b : Arena) : Call → Prop
  | .add parent kind attributes =>
    -- There is a new node, listed last by its parent.
    b.size = a.size + 1 ∧ b.slots[a.size]? = some ⟨kind, attributes, #[], some parent⟩ ∧
      ∀ (i : Nat) (s : Slot), a.slots[i]? = some s → b.slots[i]? =
        some (if i = parent then { s with children := s.children.push a.size } else s)
  | .setAttribute id key value =>
    -- One key of one node has a new value.
    b.size = a.size ∧ ∀ (i : Nat) (s : Slot), a.slots[i]? = some s →
      ∃ attributes, b.slots[i]? = some { s with attributes := attributes } ∧
        ∀ k, attributes.get? k = if i = id ∧ k = key then some value else s.attributes.get? k

theorem Session.Consistent.changes {s : Session} (h : s.Consistent) {c : Call}
    (hc : c.target ∈ s.issued) : c.Changes s.builder.arena (s.call c).builder.arena := by
  cases c with
  | add parent kind attributes =>
    have hlt : parent < s.builder.size := h.lt_size hc
    have harena : (s.call (.add parent kind attributes)).builder.arena =
        s.builder.arena.add parent kind attributes := add_eq hlt kind attributes
    rw [harena]
    refine ⟨Arena.size_add .., ?_, ?_⟩
    · rw [Arena.getElem?_add hlt, if_pos rfl]
    · intro i old hold
      exact Arena.getElem?_add_of_some hlt hold kind attributes
  | setAttribute id key value =>
    refine ⟨Arena.size_setAttribute .., ?_⟩
    intro i old hold
    show ∃ attributes, (s.builder.arena.setAttribute id key value).slots[i]? = _ ∧ _
    rw [Arena.getElem?_setAttribute, hold, Option.map_some]
    by_cases hi : i = id
    · refine ⟨old.attributes.insert key value, by rw [if_pos hi], ?_⟩
      intro k
      by_cases hk : k = key
      · rw [hk, Attributes.get?_insert_self, if_pos ⟨hi, rfl⟩]
      · rw [Attributes.get?_insert_ne _ _ hk, if_neg (fun hik => hk hik.2)]
    · refine ⟨old.attributes, by rw [if_neg hi], ?_⟩
      intro k
      rw [if_neg (fun hik => hi hik.1)]

end Builder

/-! ## Section 4: Finishing -/

/-- The error blames a node's place or its number of children, or the kind of
    the root. -/
def TreeError.BlamesRules : TreeError → Prop
  | .invalidRoot _ | .misplacedChild _ _ | .missingChildren _ _ _ => True
  | .empty | .brokenLink _ | .tooLarge _ => False

namespace Arena

theorem misplaced?_blamesRules {a : Arena} (ho : a.Ordered) {i : Nat} {s : Slot}
    (hs : a.slots[i]? = some s) {e : TreeError} (h : a.misplaced? s = some e) :
    e.BlamesRules := by
  obtain ⟨c, hc, hfound⟩ := List.exists_of_findSome?_eq_some h
  have hlt : c < a.slots.size := (ho.children_above i s hs c (Array.mem_toList_iff.1 hc)).2
  rw [Array.getElem?_eq_getElem hlt] at hfound
  dsimp only at hfound
  split at hfound
  · cases hfound
  · cases hfound
    trivial

theorem violation?_blamesRules {a : Arena} (ho : a.Ordered) (hl : a.Linked) {i : Nat} {s : Slot}
    (hs : a.slots[i]? = some s) {e : TreeError} (h : a.violation? i s = some e) :
    e.BlamesRules := by
  unfold violation? at h
  split at h
  · -- The link of a node is never found broken.
    rename_i hbroken
    simp only [Bool.and_eq_true, decide_eq_true_eq, Bool.not_eq_true'] at hbroken
    rw [hl.isLinked hbroken.1 hs] at hbroken
    cases hbroken.2
  · split at h
    · rename_i e' he
      cases h
      exact misplaced?_blamesRules ho hs he
    · split at h
      · cases h
        trivial
      · cases h

theorem validate_blamesRules {a : Arena} (ho : a.Ordered) (hl : a.Linked) {e : TreeError}
    (h : a.validate = .error e) : e.BlamesRules := by
  unfold validate at h
  split at h
  · rename_i hnone
    have hpos : 0 < a.slots.size := ho.nonempty
    rw [Array.getElem?_eq_getElem hpos] at hnone
    cases hnone
  · split at h
    · cases h
      trivial
    · split at h
      · rename_i e' he
        cases h
        obtain ⟨⟨s, i⟩, hmem, hfound⟩ := List.exists_of_findSome?_eq_some he
        rw [List.mem_zipIdx_iff_getElem?, Array.getElem?_toList] at hmem
        exact violation?_blamesRules ho hl hmem hfound
      · cases h

end Arena

/-- Finishing a reachable builder of bearable size never fails for its links
    or its size. -/
theorem Builder.Reachable.finish_blamesRules {b : Builder} (h : b.Reachable)
    (hsize : b.size ≤ Tree.maxSize) {e : TreeError} (he : b.finish = .error e) :
    e.BlamesRules :=
  Arena.validate_blamesRules b.ordered h.linked ((finish_eq_error_iff hsize).1 he)

/-! ## Section 5: Paths from the root -/

namespace Cursor

theorem descend?_append (n : Cursor) (path rest : List Nat) :
    n.descend? (path ++ rest) = (n.descend? path).bind (·.descend? rest) := by
  induction path generalizing n with
  | nil => rfl
  | cons i path ih =>
    rw [List.cons_append, descend?, descend?, Option.bind_assoc]
    congr 1
    funext c
    exact ih c

theorem exists_descend? {n m : Cursor} (h : n.Contains m) : ∃ path, n.descend? path = some m := by
  induction h with
  | refl => exact ⟨[], rfl⟩
  | @tail p m _ hm ih =>
    obtain ⟨path, hpath⟩ := ih
    obtain ⟨j, hj⟩ := List.mem_iff_getElem?.1 hm
    refine ⟨path ++ [j], ?_⟩
    rw [descend?_append, hpath, Option.bind_some, descend?, child?, hj]
    rfl

theorem contains_of_descend? {n m : Cursor} {path : List Nat} (h : n.descend? path = some m) :
    n.Contains m := by
  induction path generalizing n with
  | nil =>
    obtain rfl := Option.some.inj h
    exact .refl
  | cons i path ih =>
    obtain ⟨c, hc, hpath⟩ := Option.bind_eq_some_iff.1 h
    exact Relation.ReflTransGen.head (List.mem_of_getElem? hc) (ih hpath)

/-- In a linked tree no two paths lead from one node to another. -/
theorem descend?_unique {n m : Cursor} (hl : n.tree.arena.Linked) {path other : List Nat}
    (hpath : n.descend? path = some m) (hother : n.descend? other = some m) : path = other := by
  -- A step down goes to a larger number, so no path leads back to its start.
  have hdown : ∀ {n m : Cursor} {i : Nat} {rest : List Nat},
      n.descend? (i :: rest) = some m → n.index < m.index := by
    intro n m i rest h
    obtain ⟨c, hc, hrest⟩ := Option.bind_eq_some_iff.1 h
    exact Nat.lt_of_lt_of_le (index_lt_of_mem_children (List.mem_of_getElem? hc))
      (contains_of_descend? hrest).index_le
  induction path generalizing n other with
  | nil =>
    obtain rfl := Option.some.inj hpath
    cases other with
    | nil => rfl
    | cons j other => exact absurd (hdown hother) (Nat.lt_irrefl _)
  | cons i path ih =>
    cases other with
    | nil =>
      obtain rfl := Option.some.inj hother
      exact absurd (hdown hpath) (Nat.lt_irrefl _)
    | cons j other =>
      obtain ⟨c, hc, hpath⟩ := Option.bind_eq_some_iff.1 hpath
      obtain ⟨d, hd, hother⟩ := Option.bind_eq_some_iff.1 hother
      have hcmem : c ∈ n.children := List.mem_of_getElem? hc
      have hdmem : d ∈ n.children := List.mem_of_getElem? hd
      -- The subtrees of different children have no node in common.
      obtain rfl : c = d := by
        by_contra hne
        exact disjoint_preorder_of_mem_children hl hcmem hdmem hne
          (mem_preorder.2 (contains_of_descend? hpath))
          (mem_preorder.2 (contains_of_descend? hother))
      have hlt : i < n.children.length := (List.getElem?_eq_some_iff.1 hc).1
      have hij : i = j := (List.getElem?_inj hlt (nodup_children hl)).1 (hc.trans hd.symm)
      have htree : c.tree = n.tree := tree_of_mem_children hcmem
      rw [hij, ih (htree ▸ hl) hpath hother]

end Cursor

theorem Tree.existsUnique_path {t : Tree} (hl : t.arena.Linked) {m : Cursor} (hm : m.tree = t) :
    ∃! path, t.root.descend? path = some m := by
  obtain ⟨path, hpath⟩ := Cursor.exists_descend? (t.root_contains hl m hm)
  exact ⟨path, hpath, fun _ hother => Cursor.descend?_unique hl hother hpath⟩

/-! ## Section 6: Counting the nodes -/

/-- A counting walk counts every node below. -/
theorem Visitor.walks_counting {ns : List Cursor} {s t : Nat} {r : Visitor.Ending Empty}
    (h : counting.Walks ns s r t) : t = s + (ns.flatMap Cursor.preorder).length := by
  induction h with
  | nil s => rfl
  | enterFailed enter | stopped enter => cases enter
  | endedBelow _ inner ended _ => exact absurd (Visitor.pure_completed inner) ended
  | leaveFailed _ _ leave => cases leave
  | @next n ns s t u w x r enter _ leave _ ih ihrest =>
    obtain rfl : t = s + 1 := (Prod.mk.inj enter).2.symm
    obtain rfl : w = u := (Prod.mk.inj leave).2.symm
    rw [ihrest, ih, List.flatMap_cons, Cursor.preorder_eq, List.length_append, List.length_cons]
    omega

theorem Cursor.countNodes_eq (n : Cursor) : n.countNodes = n.preorder.length := by
  have hwalks := Visitor.walks_recurse Visitor.counting n 0
  have hcount := Visitor.walks_counting hwalks
  rw [Nat.zero_add, List.flatMap_singleton] at hcount
  rw [countNodes, Visitor.finalState, hwalks.walk_eq]
  exact hcount

/-! ## Section 7: Whole runs -/

namespace Builder

/-- After any calls with ids that the builder had issued, and below the
    largest number of nodes, the issued ids are the numbers of the nodes, the
    links agree, and the next call changes only what it is for.  Finishing
    never fails for links or size, and in a finished tree every node has
    exactly one path from the root and is counted. -/
theorem calls_keep_tree (kind : Kind) (attributes : Attributes) (calls : List Call)
    (hcalls : (Session.start kind attributes).Allows calls)
    (hsize : ((Session.start kind attributes).run calls).builder.size < Nat.pow 2 32) :
    let s := (Session.start kind attributes).run calls
    s.issued = List.range s.builder.size ∧
      s.builder.arena.Grown ∧
      (∀ c : Call, c.target ∈ s.issued → c.Changes s.builder.arena (s.call c).builder.arena) ∧
      (∀ e, s.builder.finish = .error e →
        e ≠ .empty ∧ (∀ i, e ≠ .brokenLink i) ∧ ∀ n, e ≠ .tooLarge n) ∧
      ∀ t, s.builder.finish = .ok t → t.size = s.builder.size ∧
        (∀ m : Cursor, m.tree = t → ∃! path, t.root.descend? path = some m) ∧
        t.root.countNodes = t.size := by
  intro s
  have hconsistent : s.Consistent := (Session.consistent_start kind attributes).run hcalls
  have hreach := hconsistent.reachable
  refine ⟨hconsistent.issued_eq, hreach.grown, fun c hc => hconsistent.changes hc, ?_, ?_⟩
  · intro e he
    have hmax : s.builder.size ≤ Tree.maxSize := Nat.le_of_lt_succ hsize
    have hblames := hreach.finish_blamesRules hmax he
    refine ⟨?_, ?_, ?_⟩
    · rintro rfl
      exact hblames
    · rintro i rfl
      exact hblames
    · rintro n rfl
      exact hblames
  · intro t ht
    have harena : t.arena = s.builder.arena := (finish_eq_ok_iff.1 ht).2
    have hlinked : t.arena.Linked := Tree.Built.linked ⟨s.builder, hreach, ht⟩
    refine ⟨congrArg Arena.size harena, fun m hm => Tree.existsUnique_path hlinked hm, ?_⟩
    rw [Cursor.countNodes_eq, Tree.length_preorder_root hlinked]

/-- The calls that make `twoClasses`: the second class is added after the
    class inside the first one. -/
theorem calls_keep_tree_twoClasses :
    let calls : List Call := [.add 0 (.type .class) .empty, .add 1 (.type .class) .empty,
      .add 0 (.type .class) (Attributes.empty.insert Key.name (.text "Inner")),
      .setAttribute 2 Key.name (.text "Inner")]
    let s := (Session.start .compilationUnit .empty).run calls
    (Session.start .compilationUnit .empty).Allows calls ∧ s.builder.size < Nat.pow 2 32 ∧
      s.issued = [0, 1, 2, 3] ∧ s.builder.arena.Grown ∧
      s.builder.finish = .ok Tree.twoClasses ∧ Tree.twoClasses.root.countNodes = 4 := by
  intro calls s
  have hcalls : (Session.start .compilationUnit .empty).Allows calls :=
    ⟨by decide, by decide, by decide, by decide, trivial⟩
  have hsize : s.builder.size < Nat.pow 2 32 := by decide
  have hfinish : s.builder.finish = .ok Tree.twoClasses := finish_twoClasses
  obtain ⟨hissued, hgrown, -, -, hdone⟩ :=
    calls_keep_tree .compilationUnit .empty calls hcalls hsize
  refine ⟨hcalls, hsize, hissued.trans (by decide), hgrown, hfinish, ?_⟩
  exact (hdone _ hfinish).2.2.trans (by decide)

end Builder

end JavaTree
