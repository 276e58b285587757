import JavaTree.Document
import Mathlib.Logic.Relation

/-! # Level order

    The nodes of a document in level order: first the topmost node, then its
    children, then theirs, each level from left to right.  A queue meets them
    in this order (`queueOrder_singleton`), which is how a builder numbers
    the nodes of a document. -/

namespace JavaTree.Document

/-! ## Section 1: The nodes of a document -/

/-- The document `d` contains `e`: child links lead from `d` to `e`. -/
def Contains (d e : Document) : Prop := Relation.ReflTransGen (fun a b => b ∈ a.children) d e

/-- The nodes that stand `k` levels below the topmost one, from left to right. -/
def level : Nat → Document → List Document
  | 0, d => [d]
  | k + 1, d => d.children.flatMap (level k)

/-- All nodes, level by level. -/
def levelOrder (d : Document) : List Document := (List.range d.height).flatMap (level · d)

/-- The nodes of pending documents in the order in which a queue meets them. -/
def queueOrder (pending : List Document) : List Document :=
  match pending with
  | [] => []
  | d :: rest => d :: queueOrder (rest ++ d.children)
termination_by total (pending.map size)
decreasing_by
  simp only [List.map_append, total_append, List.map_cons, total_cons, size_eq d]
  omega

@[simp] theorem queueOrder_nil : queueOrder [] = [] := by
  rw [queueOrder]

theorem queueOrder_cons (d : Document) (rest : List Document) :
    queueOrder (d :: rest) = d :: queueOrder (rest ++ d.children) := by
  rw [queueOrder]

/-! ## Section 2: A queue goes level by level -/

theorem queueOrder_append (ds es : List Document) :
    queueOrder (ds ++ es) = ds ++ queueOrder (es ++ ds.flatMap children) := by
  induction ds generalizing es with
  | nil => simp
  | cons d ds ih =>
    rw [List.cons_append, queueOrder_cons, List.append_assoc, ih, List.append_assoc]
    rfl

/-- The queue works off a whole level before it meets the next one. -/
theorem queueOrder_eq (ds : List Document) :
    queueOrder ds = ds ++ queueOrder (ds.flatMap children) := by
  have h := queueOrder_append ds []
  rw [List.append_nil, List.nil_append] at h
  exact h

theorem heightAll_append (ds es : List Document) :
    heightAll (ds ++ es) = max (heightAll ds) (heightAll es) := by
  induction ds with
  | nil => simp [heightAll]
  | cons d ds ih =>
    rw [List.cons_append, heightAll, heightAll, ih]
    omega

theorem height_eq (d : Document) : d.height = 1 + heightAll d.children := by
  cases d
  rw [height, children_node]

/-- Below some documents there is one level less. -/
theorem heightAll_cons (d : Document) (ds : List Document) :
    heightAll (d :: ds) = 1 + heightAll ((d :: ds).flatMap children) := by
  induction ds generalizing d with
  | nil => simp [heightAll, height_eq]
  | cons e es ih =>
    have hflat : (d :: e :: es).flatMap children = d.children ++ (e :: es).flatMap children :=
      List.flatMap_cons
    rw [heightAll, ih e, hflat, heightAll_append, height_eq]
    omega

theorem flatMap_level_succ (k : Nat) (ds : List Document) :
    ds.flatMap (level (k + 1)) = (ds.flatMap children).flatMap (level k) := by
  rw [List.flatMap_assoc]
  rfl

theorem flatMap_level_zero (ds : List Document) : ds.flatMap (level 0) = ds := by
  have h : level 0 = fun d => [d] := by
    funext d
    rw [level]
  rw [h, List.flatMap_singleton']

theorem queueOrder_eq_levels (ds : List Document) :
    queueOrder ds = (List.range (heightAll ds)).flatMap fun k => ds.flatMap (level k) := by
  -- The induction is on the number of levels; a step works off the first.
  induction h : heightAll ds generalizing ds with
  | zero =>
    cases ds with
    | nil => simp
    | cons d ds =>
      rw [heightAll_cons] at h
      omega
  | succ n ih =>
    have hbelow : heightAll (ds.flatMap children) = n := by
      cases ds with
      | nil => simp [heightAll] at h
      | cons d ds =>
        rw [heightAll_cons] at h
        omega
    rw [queueOrder_eq, ih _ hbelow, List.range_succ_eq_map, List.flatMap_cons, List.flatMap_map,
      flatMap_level_zero]
    congr 2
    funext k
    exact (flatMap_level_succ k ds).symm

/-- Starting with one document, a queue meets its nodes in level order. -/
theorem queueOrder_singleton (d : Document) : queueOrder [d] = d.levelOrder := by
  have hheight : heightAll [d] = d.height := by simp [heightAll]
  rw [queueOrder_eq_levels, hheight, levelOrder]
  simp

theorem levelOrder_getElem?_zero (d : Document) : d.levelOrder[0]? = some d := by
  rw [← queueOrder_singleton, queueOrder_cons]
  rfl

/-! ## Section 3: Level order lists every node -/

theorem mem_queueOrder {ds : List Document} {e : Document} :
    e ∈ queueOrder ds ↔ ∃ d ∈ ds, d.Contains e := by
  fun_induction queueOrder ds with
  | case1 => simp
  | case2 d rest ih =>
    rw [List.mem_cons, ih]
    constructor
    · rintro (rfl | ⟨x, hx, he⟩)
      · exact ⟨e, List.mem_cons_self, .refl⟩
      · rcases List.mem_append.1 hx with hx | hx
        · exact ⟨x, List.mem_cons_of_mem d hx, he⟩
        · exact ⟨d, List.mem_cons_self, Relation.ReflTransGen.head hx he⟩
    · rintro ⟨x, hx, he⟩
      rcases List.mem_cons.1 hx with rfl | hx
      · rcases Relation.ReflTransGen.cases_head he with rfl | ⟨c, hc, he⟩
        · exact .inl rfl
        · exact .inr ⟨c, List.mem_append_right rest hc, he⟩
      · exact .inr ⟨x, List.mem_append_left _ hx, he⟩

theorem mem_levelOrder {d e : Document} : e ∈ d.levelOrder ↔ d.Contains e := by
  rw [← queueOrder_singleton, mem_queueOrder]
  simp

theorem length_queueOrder (ds : List Document) : (queueOrder ds).length = total (ds.map size) := by
  fun_induction queueOrder ds with
  | case1 => rfl
  | case2 d rest ih =>
    rw [List.length_cons, ih, List.map_append, total_append, List.map_cons, total_cons, size_eq d]
    omega

theorem length_levelOrder (d : Document) : d.levelOrder.length = d.size := by
  rw [← queueOrder_singleton, length_queueOrder]
  simp

end JavaTree.Document
