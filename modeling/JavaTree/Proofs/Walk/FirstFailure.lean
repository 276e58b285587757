import JavaTree.Proofs.Tree.Links
import JavaTree.Proofs.Walk.Stack

/-! # The first failure of a walk

    A walk that combines results leaves the nodes of a subtree in postorder
    (`Cursor.postorder`), and the first node that cannot be left ends it.  If
    it can be told of each node whether it fails once its children have
    results, and why, then the result of the whole subtree tells whether some
    node in it fails, and which is the first to do so
    (`Visitor.tells_postorder`). -/

namespace JavaTree

namespace Cursor

/-! ## Section 1: The way up -/

/-- The nodes of the subtree, each after its children. -/
def postorder (n : Cursor) : List Cursor :=
  (n.children.attach.flatMap fun ⟨c, _⟩ => c.postorder) ++ [n]
termination_by n.rank
decreasing_by
  rename_i h
  exact rank_lt_of_mem_children h

theorem postorder_eq (n : Cursor) : n.postorder = n.children.flatMap postorder ++ [n] := by
  rw [postorder]
  simp

/-- The postorder lists exactly the nodes of the subtree. -/
theorem mem_postorder {n m : Cursor} : m ∈ n.postorder ↔ n.Contains m := by
  induction n using children_induction with
  | step n ih =>
    rw [postorder_eq, List.mem_append, List.mem_flatMap, List.mem_singleton]
    constructor
    · rintro (⟨c, hc, hm⟩ | rfl)
      · exact Relation.ReflTransGen.head hc ((ih c hc).1 hm)
      · exact .refl
    · intro h
      rcases Relation.ReflTransGen.cases_head h with rfl | ⟨c, hc, hm⟩
      · exact .inr rfl
      · exact .inl ⟨c, hc, (ih c hc).2 hm⟩

end Cursor

namespace Visitor

variable {ε α : Type} {fails : Cursor → ε → Prop} {ns ms : List Cursor}

/-! ## Section 2: First failures -/

/-- Of some nodes, `m` is the first that fails, and it does so with `e`. -/
structure FirstFailing (fails : Cursor → ε → Prop) (ns : List Cursor) (m : Cursor) (e : ε) :
    Prop where
  /-- It fails. -/
  failed : fails m e
  /-- Those before it do not. -/
  first : ∃ before after, ns = before ++ m :: after ∧ ∀ b ∈ before, ∀ e, ¬fails b e

theorem FirstFailing.mem {m : Cursor} {e : ε} (h : FirstFailing fails ns m e) : m ∈ ns := by
  obtain ⟨before, after, rfl, -⟩ := h.first
  exact List.mem_append_right before List.mem_cons_self

theorem FirstFailing.unique {m m' : Cursor} {e e' : ε} (h : FirstFailing fails ns m e)
    (h' : FirstFailing fails ns m' e') : m = m' := by
  obtain ⟨before, after, hns, hbefore⟩ := h.first
  obtain ⟨before', after', hns', hbefore'⟩ := h'.first
  -- If one stood before the other, it would not fail.
  rcases List.append_eq_append_iff.1 (hns.symm.trans hns') with ⟨as, hb, hrest⟩ | ⟨as, hb, hrest⟩
  · cases as with
    | nil => exact (List.cons.inj hrest).1
    | cons a as =>
      obtain ⟨rfl, -⟩ := List.cons.inj hrest
      exact absurd h.failed (hbefore' m (by simp [hb]) e)
  · cases as with
    | nil => exact (List.cons.inj hrest).1.symm
    | cons a as =>
      obtain ⟨rfl, -⟩ := List.cons.inj hrest
      exact absurd h'.failed (hbefore m' (by simp [hb]) e')

/-- The answer for some nodes tells whether one of them fails, and which is
    the first that does. -/
def TellsFirst (fails : Cursor → ε → Prop) (ns : List Cursor) : Except ε α → Prop
  | .ok _ => ∀ m ∈ ns, ∀ e, ¬fails m e
  | .error e => ∃ m, FirstFailing fails ns m e

/-- After a failure nothing else counts. -/
theorem TellsFirst.error_append {β : Type} {e : ε}
    (h : TellsFirst fails ns (.error e : Except ε α)) (ms : List Cursor) :
    TellsFirst fails (ns ++ ms) (.error e : Except ε β) := by
  obtain ⟨m, hfails, before, after, rfl, hbefore⟩ := h
  exact ⟨m, hfails, before, after ++ ms, by simp, hbefore⟩

/-- After a success what follows decides. -/
theorem TellsFirst.ok_append {β : Type} {a : α} {r : Except ε β}
    (h : TellsFirst fails ns (.ok a : Except ε α)) (hr : TellsFirst fails ms r) :
    TellsFirst fails (ns ++ ms) r := by
  cases r with
  | ok b =>
    intro m hm
    rcases List.mem_append.1 hm with hm | hm
    · exact h m hm
    · exact hr m hm
  | error e =>
    obtain ⟨m, hfails, before, after, rfl, hbefore⟩ := hr
    refine ⟨m, hfails, ns ++ before, after, by simp, ?_⟩
    intro b hb
    rcases List.mem_append.1 hb with hb | hb
    · exact h b hb
    · exact hbefore b hb

variable {combine : Cursor → List α → Except ε α} {result : Cursor → Except ε α}

theorem tellsFirst_mapM (h : ∀ n ∈ ns, TellsFirst fails n.postorder (result n)) :
    TellsFirst fails (ns.flatMap Cursor.postorder) (ns.mapM result) := by
  induction ns with
  | nil =>
    intro m hm
    exact absurd hm List.not_mem_nil
  | cons n ns ih =>
    have hn := h n List.mem_cons_self
    have hns := ih fun m hm => h m (List.mem_cons_of_mem n hm)
    rw [List.flatMap_cons]
    cases hf : result n with
    | error e =>
      rw [hf] at hn
      rw [mapM_cons_error hf]
      exact hn.error_append _
    | ok a =>
      rw [hf] at hn
      cases hfs : ns.mapM result with
      | error e =>
        rw [hfs] at hns
        rw [mapM_cons_error_tail hf hfs]
        exact hn.ok_append hns
      | ok as =>
        rw [hfs] at hns
        rw [mapM_cons_ok hf hfs]
        have hall : TellsFirst fails (n.postorder ++ ns.flatMap Cursor.postorder)
            (.ok (a :: as) : Except ε (List α)) := hn.ok_append hns
        exact hall

/-- On the way up the first node that fails ends it all. -/
theorem tells_postorder (hr : Combines combine result) {n : Cursor}
    (hnode : ∀ m as, n.Contains m → m.children.mapM result = .ok as →
      TellsFirst fails [m] (combine m as)) : TellsFirst fails n.postorder (result n) := by
  induction n using Cursor.children_induction with
  | step n ih =>
    have hchildren := tellsFirst_mapM fun c hc =>
      ih c hc fun m as hm => hnode m as (Relation.ReflTransGen.head hc hm)
    rw [Cursor.postorder_eq]
    cases hresults : n.children.mapM result with
    | error e =>
      rw [hresults] at hchildren
      rw [hr.of_children_error hresults]
      exact hchildren.error_append [n]
    | ok as =>
      rw [hresults] at hchildren
      rw [hr.of_children hresults]
      exact hchildren.ok_append (hnode n as .refl hresults)

end Visitor

end JavaTree
