import JavaTree.Attribute
import JavaTree.Kind

/-! # Arenas

    An arena stores nodes in numbered slots.  Slot zero is the root; every
    slot lists the numbers of its children and knows the number of its
    parent.  `Arena.validate` checks a whole arena slot by slot, in number
    order, and reports the first violation it meets. -/

namespace JavaTree

/-! ## Section 1: Slots and errors -/

/-- The storage of one node. -/
structure Slot where
  /-- Kind of the node. -/
  kind : Kind
  /-- Attributes of the node. -/
  attributes : Attributes
  /-- Numbers of the children, in order. -/
  children : Array Nat
  /-- Number of the parent; the root has none. -/
  parent : Option Nat

/-- List a new child at the end of a slot's children. -/
def Slot.addChild (s : Slot) (id : Nat) : Slot := { s with children := s.children.push id }

/-- A violation of the tree rules. -/
inductive TreeError where
  | empty
  | invalidRoot (found : Kind)
  | misplacedChild (parent child : Kind)
  | missingChildren (kind : Kind) (expected found : Nat)
  | brokenLink (index : Nat)
  | tooLarge (size : Nat)
  deriving DecidableEq, Repr

/-- The wording of a violation. -/
def TreeError.message : TreeError → String
  | .empty => "tree has no nodes"
  | .invalidRoot found => "root must be a CompilationUnit, found " ++ found.name
  | .misplacedChild parent child => parent.name ++ " cannot contain " ++ child.name
  | .missingChildren kind expected found =>
      kind.name ++ " needs at least " ++ toString expected ++ " children, found " ++ toString found
  | .brokenLink index => "node " ++ toString index ++ " is not linked to its parent"
  | .tooLarge size => "tree is too large (" ++ toString size ++ " nodes)"

/-- Numbered slots. -/
structure Arena where
  /-- The slots; a slot's number is its position. -/
  slots : Array Slot

namespace Arena

/-- The number of slots. -/
def size (a : Arena) : Nat := a.slots.size

/-! ## Section 2: Validation -/

/-- Whether the parent of a slot lists the slot exactly once. -/
def isLinked (a : Arena) (index : Nat) (s : Slot) : Bool :=
  match s.parent.bind (a.slots[·]?) with
  | some p => p.children.count index == 1
  | none => false

/-- The error of the first child that the slot's kind does not accept. -/
def misplaced? (a : Arena) (s : Slot) : Option TreeError :=
  s.children.toList.findSome? fun c =>
    match a.slots[c]? with
    | some child =>
      if s.kind.accepts child.kind then none else some (.misplacedChild s.kind child.kind)
    | none => some (.brokenLink c)

/-- The first violation at one slot: its link, then its children's kinds,
    then their number. -/
def violation? (a : Arena) (index : Nat) (s : Slot) : Option TreeError :=
  if 0 < index && !a.isLinked index s then some (.brokenLink index)
  else
    match a.misplaced? s with
    | some e => some e
    | none =>
      if s.children.size < s.kind.minChildren then
        some (.missingChildren s.kind s.kind.minChildren s.children.size)
      else none

/-- Check every rule.  The root is checked first, then all slots in order. -/
def validate (a : Arena) : Except TreeError Unit :=
  match a.slots[0]? with
  | none => .error .empty
  | some root =>
    if root.kind ≠ .compilationUnit || root.parent.isSome then .error (.invalidRoot root.kind)
    else
      match a.slots.toList.zipIdx.findSome? fun (s, i) => a.violation? i s with
      | some e => .error e
      | none => .ok ()

/-! ## Section 3: Order -/

/-- Children have larger numbers than their parent.  An ordered arena has no
    cycle of child links, which is what recursion along them needs. -/
structure Ordered (a : Arena) : Prop where
  /-- There is a root. -/
  nonempty : 0 < a.size
  /-- Child links lead upwards, to slots that exist. -/
  children_above : ∀ (i : Nat) (s : Slot), a.slots[i]? = some s →
    ∀ c ∈ s.children, i < c ∧ c < a.size
  /-- Parent links lead downwards. -/
  parent_below : ∀ (i : Nat) (s : Slot), a.slots[i]? = some s →
    ∀ p, s.parent = some p → p < i

/-! ## Section 4: Growing -/

/-- The arena with a single slot. -/
def single (kind : Kind) (attributes : Attributes) : Arena :=
  ⟨#[⟨kind, attributes, #[], none⟩]⟩

theorem ordered_single (kind : Kind) (attributes : Attributes) :
    (single kind attributes).Ordered where
  nonempty := by simp [single, size]
  children_above := by
    intro i s h c hc
    obtain ⟨hi, rfl⟩ := Array.getElem?_eq_some_iff.1 h
    simp [single] at hi
    subst hi
    simp [single] at hc
  parent_below := by
    intro i s h p hp
    obtain ⟨hi, rfl⟩ := Array.getElem?_eq_some_iff.1 h
    simp [single] at hi
    subst hi
    simp [single] at hp

/-- Add a slot below `parent`. -/
def add (a : Arena) (parent : Nat) (kind : Kind) (attributes : Attributes) : Arena :=
  let id := a.slots.size
  ⟨(a.slots.push ⟨kind, attributes, #[], some parent⟩).modify parent (Slot.addChild · id)⟩

@[simp] theorem size_add (a : Arena) (parent : Nat) (kind : Kind) (attributes : Attributes) :
    (a.add parent kind attributes).size = a.size + 1 := by
  simp [add, size]

/-- Put an attribute at a slot. -/
def setAttribute (a : Arena) (id : Nat) (key : String) (value : AttrValue) : Arena :=
  ⟨a.slots.modify id fun s => { s with attributes := s.attributes.insert key value }⟩

@[simp] theorem size_setAttribute (a : Arena) (id : Nat) (key : String) (value : AttrValue) :
    (a.setAttribute id key value).size = a.size := by
  simp [setAttribute, size]

theorem ordered_add {a : Arena} (h : a.Ordered) {parent : Nat} (hp : parent < a.size)
    (kind : Kind) (attributes : Attributes) : (a.add parent kind attributes).Ordered where
  nonempty := by simp
  children_above := by
    intro i s hs c hc
    rw [size_add]
    unfold size at hp
    simp only [add, Array.getElem?_modify, Array.getElem?_push] at hs
    by_cases hi : i = a.slots.size
    · -- The new slot has no children.
      simp [hi, show ¬parent = a.slots.size by omega] at hs
      subst hs
      simp at hc
    · by_cases hpi : parent = i
      · -- The parent gains the new slot as its last child.
        simp [hpi, hi] at hs
        obtain ⟨s', hs', rfl⟩ := hs
        simp [Slot.addChild] at hc
        rcases hc with hc | rfl
        · have := h.children_above i s' hs' c hc
          omega
        · simp [size]
          omega
      · -- Every other slot is as before.
        simp [hpi, hi] at hs
        have := h.children_above i s hs c hc
        omega
  parent_below := by
    intro i s hs p hps
    unfold size at hp
    simp only [add, Array.getElem?_modify, Array.getElem?_push] at hs
    by_cases hi : i = a.slots.size
    · simp [hi, show ¬parent = a.slots.size by omega] at hs
      subst hs
      simp at hps
      omega
    · by_cases hpi : parent = i
      · simp [hpi, hi] at hs
        obtain ⟨s', hs', rfl⟩ := hs
        exact h.parent_below i s' hs' p hps
      · simp [hpi, hi] at hs
        exact h.parent_below i s hs p hps

theorem ordered_setAttribute {a : Arena} (h : a.Ordered) (id : Nat) (key : String)
    (value : AttrValue) : (a.setAttribute id key value).Ordered where
  nonempty := by
    rw [size_setAttribute]
    exact h.nonempty
  children_above := by
    intro i s hs c hc
    rw [size_setAttribute]
    simp only [setAttribute, Array.getElem?_modify] at hs
    split at hs
    · obtain ⟨s', hs', rfl⟩ := Option.map_eq_some_iff.1 hs
      exact h.children_above i s' hs' c hc
    · exact h.children_above i s hs c hc
  parent_below := by
    intro i s hs p hp
    simp only [setAttribute, Array.getElem?_modify] at hs
    split at hs
    · obtain ⟨s', hs', rfl⟩ := Option.map_eq_some_iff.1 hs
      exact h.parent_below i s' hs' p hp
    · exact h.parent_below i s hs p hp

end Arena

end JavaTree
