import JavaTree.Walk

/-! # The walker refines recursion

    `Visitor.walk` works off a stack that mixes the pending siblings of many
    open nodes with the ways back up.  This module relates it to recursion.

    `Visitor.Walks` gives the rules of the recursion as a relation, for a
    list of subtrees that are walked one after the other.  Both forms of the
    walk are tied to it: `walks_recurse` says that `Visitor.recurse` follows
    the rules, and `Walks.run_append` that the stack does, whatever else is still
    pending on it.  Every other fact about walks is an induction on the rules.

    `Visitor.logging` keeps a log of all hook calls together with the states
    they were made in. -/

namespace JavaTree

namespace Visitor

variable {ε σ : Type} {v : Visitor ε σ}

/-! ## Section 1: The rules of recursion -/

/-- `v.Walks ns s r t`: walking the subtrees at `ns` in order, from state `s`,
    ends in the way `r` and leaves state `t`. -/
inductive Walks (v : Visitor ε σ) : List Cursor → σ → Ending ε → σ → Prop where
  /-- Nothing is left to walk. -/
  | nil (s : σ) : Walks v [] s .completed s
  /-- A failure on the way down ends everything. -/
  | enterFailed {n : Cursor} {ns : List Cursor} {s t : σ} {e : ε}
      (enter : v.enter n s = (.error e, t)) : Walks v (n :: ns) s (.failed e) t
  /-- A stop ends everything; nothing is left. -/
  | stopped {n : Cursor} {ns : List Cursor} {s t : σ}
      (enter : v.enter n s = (.ok .stop, t)) : Walks v (n :: ns) s .stopped t
  /-- The walk ended somewhere below. -/
  | endedBelow {n : Cursor} {ns : List Cursor} {s t u : σ} {r : Ending ε}
      (enter : v.enter n s = (.ok .descend, t)) (inner : Walks v n.children t r u)
      (ended : r ≠ .completed) : Walks v (n :: ns) s r u
  /-- A failure on the way up ends everything. -/
  | leaveFailed {n : Cursor} {ns : List Cursor} {s t u w : σ} {e : ε}
      (enter : v.enter n s = (.ok .descend, t)) (inner : Walks v n.children t .completed u)
      (leave : v.leave n u = (.error e, w)) : Walks v (n :: ns) s (.failed e) w
  /-- The subtree is done and the walk goes on with the next one. -/
  | next {n : Cursor} {ns : List Cursor} {s t u w x : σ} {r : Ending ε}
      (enter : v.enter n s = (.ok .descend, t)) (inner : Walks v n.children t .completed u)
      (leave : v.leave n u = (.ok (), w)) (rest : Walks v ns w r x) : Walks v (n :: ns) s r x

/-- Walk several subtrees in order. -/
def recurseAll (v : Visitor ε σ) : List Cursor → σ → Ending ε × σ
  | [], s => (.completed, s)
  | n :: ns, s =>
    match v.recurse n s with
    | (.completed, t) => v.recurseAll ns t
    | r => r

/-- A step of the loop over the children of a node. -/
def recurseStep (v : Visitor ε σ) (r : Ending ε × σ) (n : Cursor) : Ending ε × σ :=
  match r with
  | (.completed, s) => v.recurse n s
  | r => r

theorem foldl_recurseStep_of_ended (ns : List Cursor) {r : Ending ε} (s : σ)
    (h : r ≠ .completed) : ns.foldl v.recurseStep (r, s) = (r, s) := by
  induction ns with
  | nil => rfl
  | cons n ns ih =>
    have hstep : v.recurseStep (r, s) n = (r, s) := by
      cases r with
      | completed => exact absurd rfl h
      | stopped => rfl
      | failed e => rfl
    rw [List.foldl_cons, hstep, ih]

theorem foldl_recurseStep (ns : List Cursor) (s : σ) :
    ns.foldl v.recurseStep (.completed, s) = v.recurseAll ns s := by
  induction ns generalizing s with
  | nil => rfl
  | cons n ns ih =>
    rw [List.foldl_cons, recurseAll]
    show List.foldl v.recurseStep (v.recurse n s) ns = _
    rcases v.recurse n s with ⟨r, t⟩
    cases r with
    | completed => exact ih t
    | stopped => exact foldl_recurseStep_of_ended ns t (by simp)
    | failed e => exact foldl_recurseStep_of_ended ns t (by simp)

/-- The recursion with its loop over the children written as a recursion too. -/
theorem recurse_eq (v : Visitor ε σ) (n : Cursor) (s : σ) :
    v.recurse n s =
      match v.enter n s with
      | (.error e, t) => (.failed e, t)
      | (.ok .stop, t) => (.stopped, t)
      | (.ok .descend, t) =>
        match v.recurseAll n.children t with
        | (.completed, u) =>
          match v.leave n u with
          | (.error e, w) => (.failed e, w)
          | (.ok (), w) => (.completed, w)
        | r => r := by
  rw [recurse]
  rcases v.enter n s with ⟨_ | _ | _, t⟩
  · rfl
  · -- The loop carries along that every child is one; without that it is a
    -- fold of `recurseStep`.
    have hloop := List.foldl_attach (l := n.children) (f := v.recurseStep)
      (b := (Ending.completed, t))
    rw [foldl_recurseStep] at hloop
    dsimp only
    rw [← hloop]
    rfl
  · rfl

theorem recurseAll_singleton (n : Cursor) (s : σ) : v.recurseAll [n] s = v.recurse n s := by
  rw [recurseAll]
  rcases v.recurse n s with ⟨r, t⟩
  cases r <;> rfl

/-- A node's own rule, from the walk of its children. -/
theorem walks_recurseAll_cons {n : Cursor} {ns : List Cursor} (s : σ)
    (inner : ∀ t, v.Walks n.children t (v.recurseAll n.children t).1 (v.recurseAll n.children t).2)
    (rest : ∀ t, v.Walks ns t (v.recurseAll ns t).1 (v.recurseAll ns t).2) :
    v.Walks (n :: ns) s (v.recurseAll (n :: ns) s).1 (v.recurseAll (n :: ns) s).2 := by
  rw [recurseAll, recurse_eq]
  rcases henter : v.enter n s with ⟨_ | _ | _, t⟩
  · exact .enterFailed henter
  · have hinner := inner t
    dsimp only
    rcases hall : v.recurseAll n.children t with ⟨r, u⟩
    rw [hall] at hinner
    cases r with
    | completed =>
      dsimp only
      rcases hleave : v.leave n u with ⟨_ | _, w⟩
      · exact .leaveFailed henter hinner hleave
      · exact .next henter hinner hleave (rest w)
    | stopped => exact .endedBelow henter hinner (by simp)
    | failed e => exact .endedBelow henter hinner (by simp)
  · exact .stopped henter

/-- Siblings are walked by the rules if the children of each of them are. -/
theorem walks_recurseAll_of_children {ns : List Cursor}
    (inner : ∀ n ∈ ns, ∀ t, v.Walks n.children t
      (v.recurseAll n.children t).1 (v.recurseAll n.children t).2) (s : σ) :
    v.Walks ns s (v.recurseAll ns s).1 (v.recurseAll ns s).2 := by
  induction ns generalizing s with
  | nil => exact .nil s
  | cons n ns ih =>
    have hrest := ih fun m hm => inner m (List.mem_cons_of_mem n hm)
    exact walks_recurseAll_cons s (inner n List.mem_cons_self) hrest

/-- The recursion follows the rules. -/
theorem walks_recurseAll (v : Visitor ε σ) (ns : List Cursor) (s : σ) :
    v.Walks ns s (v.recurseAll ns s).1 (v.recurseAll ns s).2 := by
  -- Down the tree the induction is on the node, along a list on the siblings.
  have inner : ∀ (n : Cursor) (t : σ), v.Walks n.children t
      (v.recurseAll n.children t).1 (v.recurseAll n.children t).2 := by
    intro n
    induction n using Cursor.children_induction with
    | step n ih => exact walks_recurseAll_of_children ih
  exact walks_recurseAll_of_children (fun n _ => inner n) s

theorem walks_recurse (v : Visitor ε σ) (n : Cursor) (s : σ) :
    v.Walks [n] s (v.recurse n s).1 (v.recurse n s).2 := by
  rw [← recurseAll_singleton]
  exact walks_recurseAll v [n] s

/-! ## Section 2: The stack follows the rules -/

/-- What a walk answers that ended in some way and has more pending. -/
def Ending.proceed (r : Ending ε) (t : σ) (pending : σ → Except ε Unit × σ) :
    Except ε Unit × σ :=
  match r with
  | .completed => pending t
  | .stopped => (.ok (), t)
  | .failed e => (.error e, t)

theorem Ending.proceed_of_ended {r : Ending ε} (h : r ≠ .completed) (t : σ)
    (k l : σ → Except ε Unit × σ) : r.proceed t k = r.proceed t l := by
  cases r with
  | completed => exact absurd rfl h
  | stopped => rfl
  | failed e => rfl

theorem run_enter_descend {n : Cursor} {s t : σ} (h : v.enter n s = (.ok .descend, t))
    (rest : List Step) :
    v.run (.enter n :: rest) s = v.run (n.children.map .enter ++ .leave n :: rest) t := by
  rw [run, h]
  dsimp only
  rw [List.append_assoc]
  rfl

/-- The stack works off the subtrees on its top as the rules say, and then
    goes on with what lies below them. -/
theorem Walks.run_append {ns : List Cursor} {s t : σ} {r : Ending ε} (h : v.Walks ns s r t)
    (rest : List Step) : v.run (ns.map .enter ++ rest) s = r.proceed t (v.run rest) := by
  -- `rest` is general: for the children of a node it is the way up from the
  -- node, the node's pending siblings and what lay below them.
  induction h generalizing rest with
  | nil s => rfl
  | enterFailed enter =>
    rw [List.map_cons, List.cons_append, run, enter]
    rfl
  | stopped enter =>
    rw [List.map_cons, List.cons_append, run, enter]
    rfl
  | @endedBelow n ns s t u r enter _ ended ih =>
    rw [List.map_cons, List.cons_append, run_enter_descend enter, ih]
    exact Ending.proceed_of_ended ended u _ _
  | @leaveFailed n ns s t u w e enter _ leave ih =>
    rw [List.map_cons, List.cons_append, run_enter_descend enter, ih]
    show v.run (.leave n :: (ns.map .enter ++ rest)) u = _
    rw [run, leave]
    rfl
  | @next n ns s t u w x r enter _ leave _ ih ihrest =>
    rw [List.map_cons, List.cons_append, run_enter_descend enter, ih]
    show v.run (.leave n :: (ns.map .enter ++ rest)) u = _
    rw [run, leave]
    exact ihrest rest

/-- A walk by the rules is what the stack does. -/
theorem Walks.walk_eq {n : Cursor} {s t : σ} {r : Ending ε} (h : v.Walks [n] s r t) :
    v.walk n s = (r.result, t) := by
  have hrun := h.run_append []
  rw [walk]
  show v.run ([n].map .enter ++ []) s = _
  rw [hrun]
  cases r with
  | completed =>
    show v.run [] t = _
    rw [run]
    rfl
  | stopped => rfl
  | failed e => rfl

/-- The walker and the recursion give the same answer and the same state. -/
theorem walk_eq_recurse (v : Visitor ε σ) (n : Cursor) (s : σ) :
    v.walk n s = ((v.recurse n s).1.result, (v.recurse n s).2) :=
  (walks_recurse v n s).walk_eq

/-! ## Section 3: The log of a walk -/

/-- A hook call and the state it was made in. -/
structure HookCall (σ : Type) where
  /-- Which hook was called, and at which node. -/
  step : Step
  /-- The state the hook was given. -/
  state : σ

/-- The visitor with a log of the hook calls made, first one first. -/
def logging (v : Visitor ε σ) : Visitor ε (σ × List (HookCall σ)) where
  enter n s :=
    let (r, t) := v.enter n s.1
    (r, t, s.2 ++ [⟨.enter n, s.1⟩])
  leave n s :=
    let (r, t) := v.leave n s.1
    (r, t, s.2 ++ [⟨.leave n, s.1⟩])

/-- The hook calls that a walk makes. -/
def calls (v : Visitor ε σ) (n : Cursor) (s : σ) : List (HookCall σ) :=
  (v.logging.walk n (s, [])).2.2

/-- Whether the walk goes on after a hook call: the hook neither stopped it
    nor failed. -/
def GoesOn (v : Visitor ε σ) (c : HookCall σ) : Prop :=
  match c.step with
  | .enter n => (v.enter n c.state).1 = .ok .descend
  | .leave n => (v.leave n c.state).1 = .ok ()

theorem enter_logging {n : Cursor} {p q : σ × List (HookCall σ)} {r : Except ε Flow}
    (h : v.logging.enter n p = (r, q)) :
    v.enter n p.1 = (r, q.1) ∧ q.2 = p.2 ++ [⟨.enter n, p.1⟩] := by
  simp only [logging, Prod.mk.injEq] at h
  obtain ⟨rfl, rfl⟩ := h
  exact ⟨rfl, rfl⟩

theorem leave_logging {n : Cursor} {p q : σ × List (HookCall σ)} {r : Except ε Unit}
    (h : v.logging.leave n p = (r, q)) :
    v.leave n p.1 = (r, q.1) ∧ q.2 = p.2 ++ [⟨.leave n, p.1⟩] := by
  simp only [logging, Prod.mk.injEq] at h
  obtain ⟨rfl, rfl⟩ := h
  exact ⟨rfl, rfl⟩

/-- The log does not change the walk it is kept of. -/
theorem Walks.of_logging {ns : List Cursor} {p q : σ × List (HookCall σ)} {r : Ending ε}
    (h : v.logging.Walks ns p r q) : v.Walks ns p.1 r q.1 := by
  induction h with
  | nil p => exact .nil p.1
  | enterFailed enter => exact .enterFailed (enter_logging enter).1
  | stopped enter => exact .stopped (enter_logging enter).1
  | endedBelow enter _ ended ih => exact .endedBelow (enter_logging enter).1 ih ended
  | leaveFailed enter _ leave ih =>
    exact .leaveFailed (enter_logging enter).1 ih (leave_logging leave).1
  | next enter _ leave _ ih ihrest =>
    exact .next (enter_logging enter).1 ih (leave_logging leave).1 ihrest

/-- The calls of a walk are the log of a walk by the rules. -/
theorem walks_calls (v : Visitor ε σ) (n : Cursor) (s : σ) :
    ∃ r t, v.logging.Walks [n] (s, []) r (t, v.calls n s) := by
  have hlog := walks_recurse v.logging n (s, [])
  rw [calls, hlog.walk_eq]
  exact ⟨_, _, hlog⟩

/-- What holds of every call that the rules allow holds of the whole log. -/
theorem Walks.mem_log {ns : List Cursor} {p q : σ × List (HookCall σ)} {r : Ending ε}
    {good : HookCall σ → Prop} (h : v.logging.Walks ns p r q)
    (entered : ∀ n s, good ⟨.enter n, s⟩)
    (left : ∀ n s t u, v.enter n s = (.ok .descend, t) → v.Walks n.children t .completed u →
      good ⟨.leave n, u⟩)
    (before : ∀ c ∈ p.2, good c) : ∀ c ∈ q.2, good c := by
  -- Every call is logged behind those made before it.
  have hlast : ∀ {log : List (HookCall σ)} {c : HookCall σ}, (∀ d ∈ log, good d) → good c →
      ∀ d ∈ log ++ [c], good d := by
    intro log c hlog hc d hd
    rcases List.mem_append.1 hd with hd | hd
    · exact hlog d hd
    · rw [List.mem_singleton.1 hd]
      exact hc
  induction h with
  | nil p => exact before
  | enterFailed enter | stopped enter =>
    rw [(enter_logging enter).2]
    exact hlast before (entered _ _)
  | endedBelow enter _ _ ih =>
    apply ih
    rw [(enter_logging enter).2]
    exact hlast before (entered _ _)
  | leaveFailed enter inner leave ih =>
    have hinner := ih (by rw [(enter_logging enter).2]; exact hlast before (entered _ _))
    rw [(leave_logging leave).2]
    exact hlast hinner (left _ _ _ _ (enter_logging enter).1 inner.of_logging)
  | next enter inner leave _ ih ihrest =>
    have hinner := ih (by rw [(enter_logging enter).2]; exact hlast before (entered _ _))
    apply ihrest
    rw [(leave_logging leave).2]
    exact hlast hinner (left _ _ _ _ (enter_logging enter).1 inner.of_logging)

/-- A walk that ends early has made a call after which it did not go on. -/
theorem Walks.exists_not_goesOn {ns : List Cursor} {p q : σ × List (HookCall σ)} {r : Ending ε}
    (h : v.logging.Walks ns p r q) (ended : r ≠ .completed) : ∃ c ∈ q.2, ¬v.GoesOn c := by
  induction h with
  | nil p => exact absurd rfl ended
  | @enterFailed n ns p q e enter =>
    obtain ⟨henter, hlog⟩ := enter_logging enter
    refine ⟨⟨.enter n, p.1⟩, by simp [hlog], ?_⟩
    simp [GoesOn, henter]
  | @stopped n ns p q enter =>
    obtain ⟨henter, hlog⟩ := enter_logging enter
    refine ⟨⟨.enter n, p.1⟩, by simp [hlog], ?_⟩
    simp [GoesOn, henter]
  | endedBelow _ _ ended ih => exact ih ended
  | @leaveFailed n ns p a b q e _ _ leave _ =>
    obtain ⟨hleave, hlog⟩ := leave_logging leave
    refine ⟨⟨.leave n, b.1⟩, by simp [hlog], ?_⟩
    simp [GoesOn, hleave]
  | next _ _ _ _ _ ihrest => exact ihrest ended

end Visitor

end JavaTree
