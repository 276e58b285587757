import JavaTree.Proofs.Tree.Numbering

/-! # Which documents are trees

    Validation runs over the slots of an arena in number order.  For the
    arena of a document this is level order, and what it finds at a slot is
    what is wrong with that node of the document (`Document.violation?`).

    The main statement is `Tree.ofDocument_accepts_exactly`. -/

namespace JavaTree

/-! ## Section 1: The rules for one node -/

namespace Document

/-- The topmost node follows the rules: its kind accepts all its children, and
    it has enough of them. -/
structure Sound (d : Document) : Prop where
  /-- Every child is accepted. -/
  accepted : ∀ c ∈ d.children, d.kind.accepts c.kind = true
  /-- There are enough children. -/
  enough : d.kind.minChildren ≤ d.children.length

/-- The topmost node breaks a rule, and this is the error to report: its first
    child that is not accepted or else, if all are, their number. -/
inductive Offends (d : Document) : TreeError → Prop where
  | misplaced {before after : List Document} {c : Document}
      (split : d.children = before ++ c :: after)
      (accepted : ∀ x ∈ before, d.kind.accepts x.kind = true)
      (refused : d.kind.accepts c.kind = false) : Offends d (.misplacedChild d.kind c.kind)
  | missing (accepted : ∀ c ∈ d.children, d.kind.accepts c.kind = true)
      (few : d.children.length < d.kind.minChildren) :
      Offends d (.missingChildren d.kind d.kind.minChildren d.children.length)

/-- The error of one child, if the node does not accept it. -/
def refusal? (parent child : Kind) : Option TreeError :=
  if parent.accepts child then none else some (.misplacedChild parent child)

theorem refusal?_eq_none_iff {parent child : Kind} :
    refusal? parent child = none ↔ parent.accepts child = true := by
  unfold refusal?
  cases parent.accepts child <;> simp

theorem refusal?_eq_some_iff {parent child : Kind} {e : TreeError} :
    refusal? parent child = some e ↔
      parent.accepts child = false ∧ e = .misplacedChild parent child := by
  unfold refusal?
  cases parent.accepts child <;> simp [eq_comm]

/-- The first violation at the topmost node: the kinds of its children, then
    their number. -/
def violation? (d : Document) : Option TreeError :=
  match d.children.findSome? fun c => refusal? d.kind c.kind with
  | some e => some e
  | none =>
    if d.children.length < d.kind.minChildren then
      some (.missingChildren d.kind d.kind.minChildren d.children.length)
    else none

theorem firstRefusal?_eq_none_iff {d : Document} :
    (d.children.findSome? fun c => refusal? d.kind c.kind) = none ↔
      ∀ c ∈ d.children, d.kind.accepts c.kind = true := by
  simp only [List.findSome?_eq_none_iff, refusal?_eq_none_iff]

theorem firstRefusal?_eq_some_iff {d : Document} {e : TreeError} :
    (d.children.findSome? fun c => refusal? d.kind c.kind) = some e ↔
      ∃ before c after, d.children = before ++ c :: after ∧
        (∀ x ∈ before, d.kind.accepts x.kind = true) ∧ d.kind.accepts c.kind = false ∧
        e = .misplacedChild d.kind c.kind := by
  simp only [List.findSome?_eq_some_iff, refusal?_eq_none_iff, refusal?_eq_some_iff]
  constructor
  · rintro ⟨before, c, after, hsplit, ⟨hrefused, he⟩, hbefore⟩
    exact ⟨before, c, after, hsplit, hbefore, hrefused, he⟩
  · rintro ⟨before, c, after, hsplit, hbefore, hrefused, he⟩
    exact ⟨before, c, after, hsplit, ⟨hrefused, he⟩, hbefore⟩

theorem violation?_eq_some_iff {d : Document} {e : TreeError} :
    d.violation? = some e ↔ d.Offends e := by
  constructor
  · intro h
    unfold violation? at h
    cases hfirst : d.children.findSome? fun c => refusal? d.kind c.kind with
    | some e' =>
      rw [hfirst] at h
      obtain ⟨before, c, after, hsplit, hbefore, hrefused, rfl⟩ :=
        firstRefusal?_eq_some_iff.1 hfirst
      cases h
      exact .misplaced hsplit hbefore hrefused
    | none =>
      rw [hfirst] at h
      dsimp only at h
      split at h
      · rename_i few
        cases h
        exact .missing (firstRefusal?_eq_none_iff.1 hfirst) few
      · cases h
  · intro h
    cases h with
    | @misplaced before after c split accepted refused =>
      rw [violation?, firstRefusal?_eq_some_iff.2 ⟨before, c, after, split, accepted, refused, rfl⟩]
    | missing accepted few =>
      rw [violation?, firstRefusal?_eq_none_iff.2 accepted]
      dsimp only
      rw [if_pos few]

theorem violation?_eq_none_iff {d : Document} : d.violation? = none ↔ d.Sound := by
  constructor
  · intro h
    unfold violation? at h
    cases hfirst : d.children.findSome? fun c => refusal? d.kind c.kind with
    | some e =>
      rw [hfirst] at h
      cases h
    | none =>
      rw [hfirst] at h
      refine ⟨firstRefusal?_eq_none_iff.1 hfirst, Nat.not_lt.1 ?_⟩
      intro few
      simp [few] at h
  · intro h
    rw [violation?, firstRefusal?_eq_none_iff.2 h.accepted]
    dsimp only
    rw [if_neg (Nat.not_lt.2 h.enough)]

end Document

/-! ## Section 2: Validating the slots of a document -/

/-- Two searches that see the same at every place find the same. -/
theorem findSome?_eq_of_getElem {α β γ : Type} {l : List α} {m : List β} {f : α → Option γ}
    {g : β → Option γ} (hlength : l.length = m.length)
    (h : ∀ (j : Nat) (hl : j < l.length) (hm : j < m.length), f l[j] = g m[j]) :
    l.findSome? f = m.findSome? g := by
  have hmap : l.map f = m.map g := by
    apply List.ext_getElem
    · rw [List.length_map, List.length_map, hlength]
    · intro j hl hm
      rw [List.length_map] at hl hm
      rw [List.getElem_map, List.getElem_map]
      exact h j hl hm
  have hsearch := congrArg (List.findSome? id) hmap
  rw [List.findSome?_map, List.findSome?_map] at hsearch
  exact hsearch

namespace Arena

/-- What validation guarantees: the root is a compilation unit without a
    parent, and no slot breaks a rule. -/
theorem of_validate_eq_ok {a : Arena} (h : a.validate = .ok ()) :
    ∃ root, a.slots[0]? = some root ∧ root.kind = .compilationUnit ∧ root.parent = none ∧
      ∀ i s, a.slots[i]? = some s → a.violation? i s = none := by
  unfold validate at h
  split at h
  · cases h
  · rename_i root hroot
    split at h
    · cases h
    · rename_i hrules
      split at h
      · cases h
      · rename_i hnone
        simp only [ne_eq, decide_not, Bool.or_eq_true, Bool.not_eq_true', decide_eq_false_iff_not,
          not_or, not_not, Bool.not_eq_true, Option.isSome_eq_false_iff,
          Option.isNone_iff_eq_none] at hrules
        refine ⟨root, hroot, hrules.1, hrules.2, ?_⟩
        intro i s hs
        have hmem : (s, i) ∈ a.slots.toList.zipIdx := by
          rw [List.mem_zipIdx_iff_getElem?, Array.getElem?_toList]
          exact hs
        exact List.findSome?_eq_none_iff.1 hnone _ hmem

theorem Holds.slot_eq {a : Arena} {i : Nat} {d : Document} {s : Slot} (h : a.Holds i d)
    (hs : a.slots[i]? = some s) : s.kind = d.kind ∧ s.children.size = d.children.length ∧
      ∀ (j c : Nat) (e : Document), s.children[j]? = some c → d.children[j]? = some e →
        a.Holds c e := by
  cases h with
  | node slot kind attributes count children =>
    obtain rfl := Option.some.inj (slot.symm.trans hs)
    exact ⟨kind, count, children⟩

/-- What is misplaced below a slot is what is misplaced in its document. -/
theorem Holds.misplaced?_eq {a : Arena} {i : Nat} {d : Document} {s : Slot} (h : a.Holds i d)
    (hs : a.slots[i]? = some s) :
    a.misplaced? s = d.children.findSome? fun c => Document.refusal? d.kind c.kind := by
  obtain ⟨hkind, hcount, hchildren⟩ := h.slot_eq hs
  unfold Arena.misplaced?
  apply findSome?_eq_of_getElem
  · rw [Array.length_toList, hcount]
  · -- Child by child the two searches look at the same kind.
    intro j hj hj'
    have hc : s.children[j]? = some s.children.toList[j] := by
      rw [← Array.getElem?_toList, List.getElem?_eq_getElem hj]
    have hholds := hchildren j _ _ hc (List.getElem?_eq_getElem hj')
    cases hholds with
    | node slot kind => simp only [slot, kind, hkind, Document.refusal?]

theorem Linked.isLinked {a : Arena} (hl : a.Linked) {i : Nat} {s : Slot} (hi : 0 < i)
    (hs : a.slots[i]? = some s) : a.isLinked i s = true := by
  obtain ⟨p, ps, hp, hps, hcount⟩ := hl.listed_once i s hi hs
  rw [Arena.isLinked, hp, Option.bind_some, hps]
  simp [hcount]

/-- What validation finds at a slot of a linked arena is what is wrong with
    the document that the slot holds. -/
theorem Holds.violation?_eq {a : Arena} (hl : a.Linked) {i : Nat} {d : Document} {s : Slot}
    (h : a.Holds i d) (hs : a.slots[i]? = some s) : a.violation? i s = d.violation? := by
  obtain ⟨hkind, hcount, -⟩ := h.slot_eq hs
  -- The link check passes, and the rest looks at the document only.
  have hlink : (decide (0 < i) && !a.isLinked i s) = false := by
    by_cases hi : 0 < i
    · simp [hl.isLinked hi hs]
    · simp [hi]
  rw [Arena.violation?, hlink, h.misplaced?_eq hs, Document.violation?, hkind, hcount]
  rfl

end Arena

namespace Builder

/-- The first violation at the slots of a document, in number order, is the
    first one at its nodes in level order. -/
theorem findSome?_violation?_ofDocument (d : Document) :
    ((ofDocument d).arena.slots.toList.zipIdx.findSome? fun (s, i) =>
      (ofDocument d).arena.violation? i s) = d.levelOrder.findSome? Document.violation? := by
  have hl := (reachable_ofDocument d).linked
  have hsize : (ofDocument d).arena.slots.size = d.levelOrder.length := by
    rw [Document.length_levelOrder]
    exact size_ofDocument d
  -- Slot `i` holds the document at place `i` of the level order.
  apply findSome?_eq_of_getElem
  · rw [List.length_zipIdx, Array.length_toList, hsize]
  · intro i _ hi
    have hlt : i < (ofDocument d).arena.slots.size := hsize ▸ hi
    have hholds := holds_ofDocument (List.getElem?_eq_getElem hi)
    simp only [List.getElem_zipIdx, Nat.zero_add, Array.getElem_toList]
    exact hholds.violation?_eq hl (Array.getElem?_eq_getElem hlt)

/-- Validating the arena of a document: the root kind, and then the first
    violation in level order. -/
theorem validate_ofDocument (d : Document) :
    (ofDocument d).arena.validate =
      if d.kind ≠ .compilationUnit then .error (.invalidRoot d.kind)
      else (d.levelOrder.findSome? Document.violation?).elim (.ok ()) .error := by
  have hl := (reachable_ofDocument d).linked
  have hroot := holds_ofDocument (Document.levelOrder_getElem?_zero d)
  cases hroot with
  | @node _ s _ slot kind =>
    -- The root exists and has no parent, so only its kind can be wrong.
    have hparent : s.parent = none := hl.root_parent s slot
    rw [Arena.validate, slot]
    dsimp only
    rw [kind, hparent, findSome?_violation?_ofDocument]
    simp only [Option.isSome_none, Bool.or_false, decide_eq_true_eq]
    cases d.levelOrder.findSome? Document.violation? <;> rfl

/-- A builder of bearable size fails to finish exactly with the error of its
    validation. -/
theorem finish_eq_error_iff {b : Builder} (hsize : b.size ≤ Tree.maxSize) {e : TreeError} :
    b.finish = .error e ↔ b.arena.validate = .error e := by
  rw [finish, if_neg (Nat.not_lt.2 hsize)]
  split
  · rename_i e' he
    rw [he]
    constructor <;> intro h <;> cases h <;> rfl
  · rename_i he
    constructor
    · intro h
      cases h
    · intro h
      rw [he] at h
      cases h

theorem exists_finish_eq_ok_iff {b : Builder} (hsize : b.size ≤ Tree.maxSize) :
    (∃ t, b.finish = .ok t) ↔ b.arena.validate = .ok () := by
  constructor
  · rintro ⟨t, ht⟩
    rw [← (finish_eq_ok_iff.1 ht).2]
    exact t.valid
  · intro hvalid
    exact ⟨⟨b.arena, b.ordered, hvalid⟩, finish_eq_ok_iff.2 ⟨hsize, rfl⟩⟩

end Builder

/-! ## Section 3: Accepted documents and first violations -/

namespace Tree

theorem exists_ofDocument_eq_ok_iff {d : Document} (hsize : d.size ≤ maxSize) :
    (∃ t, ofDocument d = .ok t) ↔
      d.kind = .compilationUnit ∧ ∀ e, d.Contains e → e.Sound := by
  have hfinish := Builder.exists_finish_eq_ok_iff (b := Builder.ofDocument d)
    (by rw [Builder.size_ofDocument]; exact hsize)
  have hsound : d.levelOrder.findSome? Document.violation? = none ↔
      ∀ e, d.Contains e → e.Sound := by
    rw [List.findSome?_eq_none_iff]
    simp only [Document.mem_levelOrder, Document.violation?_eq_none_iff]
  rw [← hsound]
  refine hfinish.trans ?_
  rw [Builder.validate_ofDocument]
  by_cases hkind : d.kind = .compilationUnit
  · rw [if_neg (not_not_intro hkind)]
    cases d.levelOrder.findSome? Document.violation? with
    | none => simp [hkind]
    | some e => simp
  · rw [if_pos hkind]
    simp [hkind]

theorem ofDocument_eq_error_iff {d : Document} (hsize : d.size ≤ maxSize) {err : TreeError} :
    ofDocument d = .error err ↔
      (d.kind ≠ .compilationUnit ∧ err = .invalidRoot d.kind) ∨
      (d.kind = .compilationUnit ∧ ∃ before e after, d.levelOrder = before ++ e :: after ∧
        (∀ x ∈ before, x.Sound) ∧ e.Offends err) := by
  have hfinish := Builder.finish_eq_error_iff (b := Builder.ofDocument d) (e := err)
    (by rw [Builder.size_ofDocument]; exact hsize)
  have hfirst : d.levelOrder.findSome? Document.violation? = some err ↔
      ∃ before e after, d.levelOrder = before ++ e :: after ∧
        (∀ x ∈ before, x.Sound) ∧ e.Offends err := by
    rw [List.findSome?_eq_some_iff]
    simp only [Document.violation?_eq_some_iff, Document.violation?_eq_none_iff]
    constructor
    · rintro ⟨before, e, after, hsplit, he, hbefore⟩
      exact ⟨before, e, after, hsplit, hbefore, he⟩
    · rintro ⟨before, e, after, hsplit, hbefore, he⟩
      exact ⟨before, e, after, hsplit, he, hbefore⟩
  rw [← hfirst]
  refine hfinish.trans ?_
  rw [Builder.validate_ofDocument]
  by_cases hkind : d.kind = .compilationUnit
  · rw [if_neg (not_not_intro hkind)]
    cases d.levelOrder.findSome? Document.violation? with
    | none => simp [hkind]
    | some e => simp [hkind]
  · rw [if_pos hkind]
    simp [hkind, eq_comm]

/-- A document of bearable size is accepted exactly if its root is a
    compilation unit and every node at every depth follows the rules.  A wrong
    root is reported before everything else; otherwise the error belongs to
    the first offending node in level order.  No other error is reported. -/
theorem ofDocument_accepts_exactly {d : Document} (hsize : d.size ≤ maxSize) :
    ((∃ t, ofDocument d = .ok t) ↔
      d.kind = .compilationUnit ∧ ∀ e, d.Contains e → e.Sound) ∧
    (d.kind ≠ .compilationUnit → ofDocument d = .error (.invalidRoot d.kind)) ∧
    (d.kind = .compilationUnit → ∀ err, ofDocument d = .error err ↔
      ∃ before e after, d.levelOrder = before ++ e :: after ∧
        (∀ x ∈ before, x.Sound) ∧ e.Offends err) ∧
    (∀ err, ofDocument d = .error err →
      err ≠ .empty ∧ (∀ i, err ≠ .brokenLink i) ∧ ∀ n, err ≠ .tooLarge n) := by
  refine ⟨exists_ofDocument_eq_ok_iff hsize, ?_, ?_, ?_⟩
  · intro hkind
    exact (ofDocument_eq_error_iff hsize).2 (.inl ⟨hkind, rfl⟩)
  · intro hkind err
    rw [ofDocument_eq_error_iff hsize]
    simp [hkind]
  · intro err herr
    rcases (ofDocument_eq_error_iff hsize).1 herr with ⟨-, rfl⟩ | ⟨-, _, _, _, -, -, hoffends⟩
    · simp
    · cases hoffends <;> simp

/-- A class has a method with a class misplaced in its body, and after it a
    field that declares nothing.  The field is reported: it stands on an upper
    level, although the misplaced class would be met first on the way down. -/
theorem ofDocument_reports_shallow_field :
    let field := Document.node (.member .field) .empty []
    let body := Document.node (.statement .block) .empty [.node (.type .class) .empty []]
    let d := Document.node .compilationUnit .empty
      [.node (.type .class) .empty [.node (.member .method) .empty [body], field],
        .node (.type .enum) .empty []]
    d.size ≤ maxSize ∧ ofDocument d = .error (.missingChildren (.member .field) 1 0) := by
  intro field body d
  have hsize : d.size ≤ maxSize := by decide
  refine ⟨hsize, ((ofDocument_accepts_exactly hsize).2.2.1 rfl _).2 ?_⟩
  have hfield : field.Offends (.missingChildren (.member .field) 1 0) :=
    .missing (by simp [field]) (by decide)
  refine ⟨d.levelOrder.take 4, field, d.levelOrder.drop 5, by rfl, ?_, hfield⟩
  intro x hx
  refine Document.violation?_eq_none_iff.1 ?_
  revert x
  decide

end Tree

end JavaTree
