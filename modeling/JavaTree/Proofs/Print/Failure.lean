import JavaTree.Proofs.Print.Structural
import JavaTree.Proofs.Tree.RoundTrip
import JavaTree.Proofs.Walk.FirstFailure

/-! # When printing fails

    Most templates ask for children at fixed positions, and in a tree these
    are there: the grammar asks for as many.  What is left are the children
    whose place or kind the grammar does not fix (`Template.Lacks`), and the
    brackets of an array creation, which are repeated as often as an attribute
    says (`Template.Oversized`).

    The main statement is `Printer.print_fails_exactly`: with room for the
    spaces of a level a subtree is printed unless a node in it lacks such a
    child or is oversized, and the failure is that of the first such node on
    the way up. -/

namespace JavaTree

/-! ## Section 1: Missing children -/

namespace Template

/-- A node of some kind, with attributes `a` and children of the kinds `ks`,
    lacks the child that plays a role. -/
inductive Lacks : Kind → Attributes → List Kind → String → Prop where
  /-- Initializers, condition and updates of a `for` leave no child for its
      body. -/
  | forBody {a : Attributes} {ks : List Kind}
      (few : ks.length ≤
        a.count Key.init + (if a.flag Key.condition then 1 else 0) + a.count Key.update) :
      Lacks (.statement .for) a ks "body"
  /-- The resources of a `try` leave no child for its block. -/
  | tryBlock {a : Attributes} {ks : List Kind} (few : ks.length ≤ a.count Key.resources) :
      Lacks (.statement .tryCatch) a ks "try block"
  /-- A method call says it has a scope and has no child. -/
  | scope {a : Attributes} (claimed : a.flag Key.hasScope = true) :
      Lacks (.expression .methodCall) a [] "scope"
  /-- A lambda ends in a parameter. -/
  | lambdaBody {a : Attributes} {ks : List Kind} (last : ks.getLast? = some .parameter) :
      Lacks (.expression .lambda) a ks "body"
  /-- A `catch` clause has no parameter. -/
  | catchParameter {a : Attributes} {ks : List Kind} (none : .parameter ∉ ks) :
      Lacks .catchClause a ks "parameter"
  /-- A `catch` clause has a parameter and no block. -/
  | catchBody {a : Attributes} {ks : List Kind} (some : .parameter ∈ ks)
      (none : .statement .block ∉ ks) : Lacks .catchClause a ks "body"

/-- A node lacks at most one child. -/
theorem Lacks.role_unique {kind : Kind} {a : Attributes} {ks : List Kind} {r s : String}
    (hr : Lacks kind a ks r) (hs : Lacks kind a ks s) : r = s := by
  cases hr with
  | catchParameter none =>
    cases hs with
    | catchParameter => rfl
    | catchBody some => exact absurd some none
  | catchBody some =>
    cases hs with
    | catchParameter none => exact absurd some none
    | catchBody => rfl
  | _ =>
    cases hs
    rfl

/-- An array creation with so many dimensions that there is no room for their
    brackets. -/
def Oversized (kind : Kind) (a : Attributes) : Prop :=
  kind = .expression .arrayCreation ∧ Nat.pow 2 62 ≤ a.count Key.extraDims

/-- There is room for fewer than `2 ^ 62` pairs of brackets. -/
theorem brackets_room_iff (count : Nat) :
    count * "[]".utf8ByteSize ≤ maxBytes ↔ count < Nat.pow 2 62 := by
  have hsize : "[]".utf8ByteSize = 2 := by decide
  have hhalf : maxBytes + 1 = Nat.pow 2 62 * 2 := by decide
  rw [hsize]
  omega

/-- Why a node of some kind has no source text, if it has none. -/
def FailsFor (kind : Kind) (a : Attributes) (ks : List Kind) : RenderFailure → Prop
  | .reported e => ∃ role, Lacks kind a ks role ∧ e = .missingChild kind role
  | .panicked p => p = .capacity ∧ Oversized kind a

/-- An array creation lacks nothing. -/
theorem Oversized.not_lacks {kind : Kind} {a : Attributes} (h : Oversized kind a)
    (ks : List Kind) (role : String) : ¬Lacks kind a ks role := by
  intro hlacks
  rw [h.1] at hlacks
  cases hlacks

theorem FailsFor.unique {kind : Kind} {a : Attributes} {ks : List Kind} {e e' : RenderFailure}
    (h : FailsFor kind a ks e) (h' : FailsFor kind a ks e') : e = e' := by
  cases e with
  | reported =>
    obtain ⟨role, hlacks, rfl⟩ := h
    cases e' with
    | reported =>
      obtain ⟨role', hlacks', rfl⟩ := h'
      rw [hlacks.role_unique hlacks']
    | panicked => exact absurd hlacks (h'.2.not_lacks ks role)
  | panicked =>
    cases e' with
    | reported =>
      obtain ⟨role, hlacks, -⟩ := h'
      exact absurd hlacks (h.2.not_lacks ks role)
    | panicked => rw [h.1, h'.1]

/-- The answer of a template tells whether the node fails, and why. -/
def Tells (kind : Kind) (a : Attributes) (ks : List Kind) :
    Except RenderFailure Fragment → Prop
  | .ok _ => ∀ e, ¬FailsFor kind a ks e
  | .error e => FailsFor kind a ks e

/-! ## Section 2: Templates at their place -/

variable {a : Attributes} {parts : List (Part Fragment)}

/-- Statements other than `for` and `try` find what they ask for at fixed
    positions. -/
theorem statement_ok {k : StatementKind} (hfor : k ≠ .for) (htry : k ≠ .tryCatch)
    (h : (Kind.statement k).minChildren ≤ parts.length) :
    ∃ f, statement k a parts = .ok f := by
  cases k with
  | «for» => exact absurd rfl hfor
  | tryCatch => exact absurd rfl htry
  | block | localVariable | «break» | «continue» | empty | constructorCall => exact ⟨_, rfl⟩
  | «return» => cases parts <;> exact ⟨_, rfl⟩
  | expression | switch | throw | labeled | localClass =>
    match parts, h with
    | p :: rest, _ => exact ⟨_, rfl⟩
  | assert =>
    match parts, h with
    | [p], _ => exact ⟨_, rfl⟩
    | p :: q :: rest, _ => exact ⟨_, rfl⟩
  | conditional | forEach | «while» | doWhile | synchronized =>
    match parts, h with
    | p :: q :: rest, _ => exact ⟨_, rfl⟩

/-- Expressions other than method calls, lambdas and array creations do so as
    well. -/
theorem expression_ok {k : ExpressionKind} (hcall : k ≠ .methodCall) (hlambda : k ≠ .lambda)
    (harray : k ≠ .arrayCreation) (h : (Kind.expression k).minChildren ≤ parts.length) :
    ∃ f, expression k a parts = .ok f := by
  cases k with
  | methodCall => exact absurd rfl hcall
  | lambda => exact absurd rfl hlambda
  | arrayCreation => exact absurd rfl harray
  | name | literal | this | super | objectCreation | arrayInitializer | classLiteral =>
    exact ⟨_, rfl⟩
  | annotationUse => cases parts <;> exact ⟨_, rfl⟩
  | fieldAccess | unary | cast | instanceOf | enclosed | methodReference =>
    match parts, h with
    | p :: rest, _ => exact ⟨_, rfl⟩
  | arrayAccess | binary | assign =>
    match parts, h with
    | p :: q :: rest, _ => exact ⟨_, rfl⟩
  | conditional =>
    match parts, h with
    | p :: q :: r :: rest, _ => exact ⟨_, rfl⟩

/-- So do members; the children of an initializer are all blocks. -/
theorem member_ok {k : MemberKind}
    (haccepted : ∀ p ∈ parts, (Kind.member k).accepts p.kind = true)
    (h : (Kind.member k).minChildren ≤ parts.length) : ∃ f, member k a parts = .ok f := by
  cases k with
  | method | constructor | field => exact ⟨_, rfl⟩
  | enumConstant =>
    unfold member
    dsimp only
    split <;> exact ⟨_, rfl⟩
  | annotationMember =>
    unfold member
    dsimp only
    split <;> exact ⟨_, rfl⟩
  | initializer =>
    have hblock : ∀ p ∈ parts, p.kind = .statement .block := by
      intro p hp
      have haccepts := haccepted p hp
      simp only [Kind.accepts, Bool.and_eq_true] at haccepts
      exact of_decide_eq_true haccepts.2
    have hrest : withoutAnnotations (parts.filter (!·.kind.isComment)) = parts := by
      have hcomments : parts.filter (!·.kind.isComment) = parts :=
        List.filter_eq_self.2 fun p hp => by rw [hblock p hp]; rfl
      rw [hcomments]
      exact List.filter_eq_self.2 fun p hp => by rw [hblock p hp]; rfl
    unfold member
    dsimp only
    rw [hrest]
    match parts, h with
    | p :: rest, _ => exact ⟨_, rfl⟩

theorem Tells.of_ok {kind : Kind} {ks : List Kind} {r : Except RenderFailure Fragment}
    (hkind : kind ≠ .expression .arrayCreation) (hlacks : ∀ role, ¬Lacks kind a ks role)
    (h : ∃ f, r = .ok f) : Tells kind a ks r := by
  obtain ⟨f, rfl⟩ := h
  intro e hfails
  cases e with
  | reported =>
    obtain ⟨role, hrole, -⟩ := hfails
    exact hlacks role hrole
  | panicked => exact hkind hfails.2.1

theorem forLoop_tells : Tells (.statement .for) a (parts.map (·.kind)) (forLoop a parts) := by
  unfold forLoop
  dsimp only
  rcases required_cases (.statement .for) parts
      (a.count Key.init + (if a.flag Key.condition then 1 else 0) + a.count Key.update) "body" with
    ⟨body, hget, hreq⟩ | ⟨hle, hreq⟩
  · obtain ⟨hlt, -⟩ := List.getElem?_eq_some_iff.1 hget
    rw [hreq]
    refine .of_ok nofun ?_ ⟨_, rfl⟩
    intro role h
    cases h with
    | forBody few =>
      rw [List.length_map] at few
      omega
  · rw [hreq]
    exact ⟨"body", .forBody (by rwa [List.length_map]), rfl⟩

theorem tryCatch_tells :
    Tells (.statement .tryCatch) a (parts.map (·.kind)) (tryCatch a parts) := by
  unfold tryCatch
  dsimp only
  rcases required_cases (.statement .tryCatch) parts (a.count Key.resources) "try block" with
    ⟨block, hget, hreq⟩ | ⟨hle, hreq⟩
  · obtain ⟨hlt, -⟩ := List.getElem?_eq_some_iff.1 hget
    rw [hreq]
    refine .of_ok nofun ?_ ?_
    · intro role h
      cases h with
      | tryBlock few =>
        rw [List.length_map] at few
        omega
    · cases (if a.flag Key.hasFinally then (parts.drop (a.count Key.resources + 1)).getLast?
        else none) <;> exact ⟨_, rfl⟩
  · rw [hreq]
    exact ⟨"try block", .tryBlock (by rwa [List.length_map]), rfl⟩

theorem methodCall_tells :
    Tells (.expression .methodCall) a (parts.map (·.kind)) (expression .methodCall a parts) := by
  unfold expression
  dsimp only
  by_cases hscope : a.flag Key.hasScope = true
  · rw [if_pos hscope]
    cases parts with
    | nil => exact ⟨"scope", .scope hscope, rfl⟩
    | cons p rest => exact .of_ok nofun nofun ⟨_, rfl⟩
  · rw [if_neg hscope]
    refine .of_ok nofun ?_ ⟨_, rfl⟩
    intro role h
    generalize parts.map (·.kind) = ks at h
    cases h
    contradiction

theorem arrayCreation_tells :
    Tells (.expression .arrayCreation) a (parts.map (·.kind)) (arrayCreation a parts) := by
  unfold arrayCreation
  dsimp only
  by_cases hroom : a.count Key.extraDims * "[]".utf8ByteSize ≤ maxBytes
  · have hfits (e : RenderFailure) :
        ¬FailsFor (.expression .arrayCreation) a (parts.map (·.kind)) e := by
      cases e with
      | reported =>
        rintro ⟨role, hlacks, -⟩
        generalize parts.map (·.kind) = ks at hlacks
        cases hlacks
      | panicked =>
        rintro ⟨-, -, hcount⟩
        exact absurd ((brackets_room_iff _).1 hroom) (Nat.not_lt.2 hcount)
    rw [Text.repeated_eq_ok hroom, lift_ok_bind]
    cases (ofKind (.expression .arrayInitializer) parts).getLast? <;> exact hfits
  · rw [Text.repeated_eq_error (Nat.not_le.1 hroom), lift_error_bind]
    exact ⟨rfl, rfl, Nat.not_lt.1 (mt (brackets_room_iff _).2 hroom)⟩

theorem lambda_tells (h : 1 ≤ parts.length) :
    Tells (.expression .lambda) a (parts.map (·.kind)) (lambda parts) := by
  obtain ⟨last, hlast⟩ : ∃ p, parts.getLast? = some p :=
    ⟨_, List.getLast?_eq_some_getLast (List.ne_nil_of_length_pos h)⟩
  have hkind : (parts.map (·.kind)).getLast? = some last.kind := by
    rw [List.getLast?_map, hlast]
    rfl
  unfold lambda
  dsimp only
  rw [hlast]
  by_cases hparam : last.kind = .parameter
  · have hnone : (some last).toList.filter (·.kind ≠ .parameter) = [] := by simp [hparam]
    rw [hnone]
    exact ⟨"body", .lambdaBody (hkind.trans (congrArg some hparam)), rfl⟩
  · have hsome : (some last).toList.filter (·.kind ≠ .parameter) = [last] := by simp [hparam]
    rw [hsome]
    refine .of_ok nofun ?_ ?_
    · intro role h
      cases h with
      | lambdaBody hend =>
        rw [hkind] at hend
        exact hparam (Option.some.inj hend)
    · cases ofKind .parameter parts with
      | nil => exact ⟨_, rfl⟩
      | cons p ps =>
        cases ps with
        | nil =>
          show ∃ f, (if textAt p.attributes Key.type = "" then _ else _) = Except.ok f
          split <;> exact ⟨_, rfl⟩
        | cons q ps => exact ⟨_, rfl⟩

theorem mem_kinds_iff {k : Kind} : k ∈ parts.map (·.kind) ↔ ofKind k parts ≠ [] := by
  simp [ofKind, List.filter_eq_nil_iff]

/-- A `catch` clause has parameters and blocks only, so that what is no
    parameter is a block. -/
theorem catchClause_tells (haccepted : ∀ p ∈ parts, Kind.catchClause.accepts p.kind = true) :
    Tells .catchClause a (parts.map (·.kind)) (catchClause parts) := by
  have hkinds : ∀ p ∈ parts, p.kind = .parameter ∨ p.kind = .statement .block := by
    intro p hp
    have haccepts := haccepted p hp
    simp only [Kind.accepts, Kind.admits, Kind.isBlock, Bool.and_eq_true, Bool.or_eq_true,
      decide_eq_true_eq] at haccepts
    exact haccepts.2
  have hothers : notOfKind .parameter parts = ofKind (.statement .block) parts := by
    refine List.filter_congr fun p hp => ?_
    rcases hkinds p hp with h | h <;> simp [h]
  unfold catchClause
  rw [hothers]
  cases hparams : ofKind .parameter parts with
  | nil =>
    exact ⟨"parameter", .catchParameter fun h => mem_kinds_iff.1 h hparams, rfl⟩
  | cons p ps =>
    have hsome := mem_kinds_iff.2 (by rw [hparams]; exact List.cons_ne_nil p ps)
    cases hblocks : ofKind (.statement .block) parts with
    | nil => exact ⟨"body", .catchBody hsome fun h => mem_kinds_iff.1 h hblocks, rfl⟩
    | cons b bs =>
      refine .of_ok nofun ?_ ⟨_, rfl⟩
      intro role h
      cases h with
      | catchParameter none => exact none hsome
      | catchBody _ none =>
        exact none (mem_kinds_iff.2 (by rw [hblocks]; exact List.cons_ne_nil b bs))

/-- In a tree a template fails exactly if the node lacks a child or is
    oversized. -/
theorem node_tells {kind : Kind} (haccepted : ∀ p ∈ parts, kind.accepts p.kind = true)
    (henough : kind.minChildren ≤ parts.length) :
    Tells kind a (parts.map (·.kind)) (node kind a parts) := by
  cases kind with
  | catchClause => exact catchClause_tells haccepted
  | member k => exact .of_ok nofun nofun (member_ok haccepted henough)
  | statement k =>
    by_cases hfor : k = .for
    · subst hfor
      exact forLoop_tells
    · by_cases htry : k = .tryCatch
      · subst htry
        exact tryCatch_tells
      · refine .of_ok nofun ?_ (statement_ok hfor htry henough)
        intro role h
        cases h <;> contradiction
  | expression k =>
    by_cases hcall : k = .methodCall
    · subst hcall
      exact methodCall_tells
    · by_cases hlambda : k = .lambda
      · subst hlambda
        exact lambda_tells henough
      · by_cases harray : k = .arrayCreation
        · subst harray
          exact arrayCreation_tells
        · refine .of_ok (fun h => harray (Kind.expression.inj h)) ?_
            (expression_ok hcall hlambda harray henough)
          intro role h
          generalize parts.map (·.kind) = ks at h
          cases h <;> contradiction
  | _ => exact .of_ok nofun nofun ⟨_, rfl⟩

end Template

/-! ## Section 3: Subtrees on the way up -/

namespace Cursor

/-- The node lacks the child that plays a role. -/
def Lacks (n : Cursor) (role : String) : Prop :=
  Template.Lacks n.kind n.attributes (n.children.map kind) role

/-- The node is an array creation without room for its brackets. -/
def Oversized (n : Cursor) : Prop := Template.Oversized n.kind n.attributes

/-- Why the node has no source text though its children have one, if it has
    none: it lacks a child, or it is oversized. -/
def FailsFor (n : Cursor) (e : RenderFailure) : Prop :=
  Template.FailsFor n.kind n.attributes (n.children.map kind) e

/-- Of the nodes of the subtree in postorder, the first that is oversized or
    lacks a child is oversized. -/
def Overflows (n : Cursor) : Prop :=
  ∃ m, Visitor.FirstFailing FailsFor n.postorder m (.panicked .capacity)

theorem Overflows.exists_oversized {n : Cursor} (h : n.Overflows) :
    ∃ m, n.Contains m ∧ m.Oversized := by
  obtain ⟨m, hfirst⟩ := h
  exact ⟨m, mem_postorder.1 hfirst.mem, hfirst.failed.2⟩

/-- The kinds of the parts of a node are those of its children. -/
theorem map_kind_toParts {n : Cursor} {bodies : List Fragment}
    (h : bodies.length = n.children.length) :
    (n.toParts bodies).map (·.kind) = n.children.map kind := by
  rw [toParts]
  generalize n.children = cs at h
  induction cs generalizing bodies with
  | nil => rfl
  | cons c cs ih =>
    cases bodies with
    | nil => cases h
    | cons b bs =>
      rw [List.zipWith_cons_cons, List.map_cons, List.map_cons, ih (by simpa using h)]
      rfl

end Cursor

namespace Printer

/-- In a tree the template of a node whose children have source texts tells
    whether the node fails. -/
theorem node_tells {n : Cursor} (hl : n.tree.arena.Linked) {bodies : List Fragment}
    (h : bodies.length = n.children.length) :
    Template.Tells n.kind n.attributes (n.children.map Cursor.kind)
      (Template.node n.kind n.attributes (n.toParts bodies)) := by
  have hkinds := Cursor.map_kind_toParts h
  have hsound := Cursor.sound_toDocument hl
  have haccepted : ∀ p ∈ n.toParts bodies, n.kind.accepts p.kind = true := by
    intro p hp
    have hmem : p.kind ∈ n.children.map Cursor.kind := hkinds ▸ List.mem_map_of_mem hp
    obtain ⟨c, hc, hkind⟩ := List.mem_map.1 hmem
    have := hsound.accepted c.toDocument (by simpa using ⟨c, hc, rfl⟩)
    simpa [← hkind] using this
  have henough : n.kind.minChildren ≤ (n.toParts bodies).length := by
    have := hsound.enough
    rw [← List.length_map (·.kind), hkinds, List.length_map]
    simpa using this
  rw [← hkinds]
  exact Template.node_tells haccepted henough

/-- On the way up the first node that fails ends the printing. -/
theorem fragment_tells {n : Cursor} (hl : n.tree.arena.Linked) :
    Visitor.TellsFirst Cursor.FailsFor n.postorder (fragment n) := by
  refine Visitor.tells_postorder combines_fragment ?_
  intro m bodies hm hbodies
  have hlinked : m.tree.arena.Linked := hm.tree_eq.symm ▸ hl
  have htells := node_tells hlinked (length_of_mapM_ok hbodies)
  cases hnode : Template.node m.kind m.attributes (m.toParts bodies) with
  | ok f =>
    rw [hnode] at htells
    intro k hk
    rw [List.mem_singleton.1 hk]
    exact htells
  | error e =>
    rw [hnode] at htells
    exact ⟨m, htells, [], [], rfl, fun b hb => absurd hb List.not_mem_nil⟩

/-! ## Section 4: Failing prints -/

theorem fragment_eq_error_iff {n : Cursor} (hl : n.tree.arena.Linked) (e : RenderFailure) :
    fragment n = .error e ↔ ∃ m, Visitor.FirstFailing Cursor.FailsFor n.postorder m e := by
  have htells := fragment_tells hl
  cases hf : fragment n with
  | ok f =>
    rw [hf] at htells
    constructor
    · intro h
      cases h
    · rintro ⟨m, hfirst⟩
      exact absurd hfirst.failed (htells m hfirst.mem e)
  | error e' =>
    rw [hf] at htells
    obtain ⟨m, hfirst⟩ := htells
    constructor
    · intro h
      cases h
      exact ⟨m, hfirst⟩
    · rintro ⟨m', hfirst'⟩
      obtain rfl := hfirst.unique hfirst'
      rw [hfirst.failed.unique hfirst'.failed]

/-- With room for the spaces of a level, printing fails as the first node on
    the way up that fails. -/
theorem print_eq_error_iff {n : Cursor} (hl : n.tree.arena.Linked) {layout : Layout}
    (hwidth : layout.indentWidth ≤ maxBytes) (e : RenderFailure) :
    print layout n = .error e ↔
      ∃ m, Visitor.FirstFailing Cursor.FailsFor n.postorder m e := by
  rw [← fragment_eq_error_iff hl, print_eq_write hwidth]
  cases fragment n with
  | ok f =>
    constructor
    · intro h
      cases h
    · intro h
      cases h
  | error e' =>
    show Except.error e' = Except.error e ↔ _
    rw [Except.error.injEq, Except.error.injEq]

/-- Printing breaks off only for want of room: for the spaces of a level, or
    for the brackets of an array creation. -/
theorem print_panics_iff {n : Cursor} (hl : n.tree.arena.Linked) (layout : Layout) (p : Panic) :
    print layout n = .error (.panicked p) ↔
      p = .capacity ∧ (maxBytes < layout.indentWidth ∨ n.Overflows) := by
  rcases Nat.lt_or_ge maxBytes layout.indentWidth with hwide | hwidth
  · rw [print_of_wide hwide]
    simp [hwide, eq_comm]
  · rw [print_eq_error_iff hl hwidth]
    constructor
    · rintro ⟨m, hfirst⟩
      obtain rfl := hfirst.failed.1
      exact ⟨rfl, .inr ⟨m, hfirst⟩⟩
    · rintro ⟨rfl, hwide | hover⟩
      · exact absurd hwidth (Nat.not_le.2 hwide)
      · exact hover

/-- When printing a subtree of a built tree fails, and how.

    A failure is reported exactly if there is room for the spaces of a level
    and the first node in postorder that lacks a child in one of the ways of
    `Template.Lacks`, or is oversized, lacks a child; the failure is that of
    this node.  So without an oversized node it is reported exactly if some
    node lacks a child.

    Printing breaks off only without room, for the spaces of a level or for
    the brackets of the first such node.  Whatever the attributes are, the
    counts of a node add up to a number of 64 bits, and no slice and no
    position is out of range. -/
theorem print_fails_exactly {n : Cursor} (built : n.tree.Built) (layout : Layout) :
    (∀ e, print layout n = .error (.reported e) ↔
      layout.indentWidth ≤ maxBytes ∧ ∃ m role,
        Visitor.FirstFailing Cursor.FailsFor n.postorder m (.reported e) ∧
          m.Lacks role ∧ e = .missingChild m.kind role) ∧
    (layout.indentWidth ≤ maxBytes → (∀ m, n.Contains m → ¬m.Oversized) →
      ((∃ e, print layout n = .error (.reported e)) ↔
        ∃ m role, n.Contains m ∧ m.Lacks role)) ∧
    (∀ p, print layout n = .error (.panicked p) ↔
      p = .capacity ∧ (maxBytes < layout.indentWidth ∨ n.Overflows)) ∧
    ∀ m, n.Contains m → m.attributes.count Key.init
      + (if m.attributes.flag Key.condition then 1 else 0) + m.attributes.count Key.update
        < Nat.pow 2 64 := by
  have hpanics := print_panics_iff built.linked layout
  refine ⟨fun e => ⟨?_, ?_⟩, fun hwidth hsizes => ⟨?_, ?_⟩, hpanics, fun m _ => ?_⟩
  · intro h
    rcases Nat.lt_or_ge maxBytes layout.indentWidth with hwide | hwidth
    · rw [print_of_wide hwide] at h
      cases h
    · obtain ⟨m, hfirst⟩ := (print_eq_error_iff built.linked hwidth _).1 h
      obtain ⟨role, hlacks, he⟩ := hfirst.failed
      exact ⟨hwidth, m, role, hfirst, hlacks, he⟩
  · rintro ⟨hwidth, m, -, hfirst, -, -⟩
    exact (print_eq_error_iff built.linked hwidth _).2 ⟨m, hfirst⟩
  · rintro ⟨e, he⟩
    obtain ⟨m, hfirst⟩ := (print_eq_error_iff built.linked hwidth _).1 he
    obtain ⟨role, hlacks, -⟩ := hfirst.failed
    exact ⟨m, role, Cursor.mem_postorder.1 hfirst.mem, hlacks⟩
  · rintro ⟨m, role, hm, hlacks⟩
    cases hprint : print layout n with
    | ok out =>
      obtain ⟨f, hf, -⟩ := of_print_eq_ok hprint
      have htells := fragment_tells built.linked
      rw [hf] at htells
      exact absurd ⟨role, hlacks, rfl⟩
        (htells m (Cursor.mem_postorder.2 hm) (.reported (.missingChild m.kind role)))
    | error e =>
      cases e with
      | reported e => exact ⟨e, rfl⟩
      | panicked p =>
        rcases ((hpanics p).1 hprint).2 with hwide | hover
        · exact absurd hwidth (Nat.not_le.2 hwide)
        · obtain ⟨k, hk, hsize⟩ := hover.exists_oversized
          exact absurd hsize (hsizes k hk)
  · exact m.attributes.count_add_count_lt Key.init Key.update (by split <;> decide)

end Printer

/-- An initializer block with a `for` that counts as many initializers and
    updates as an attribute can say, and has one child. -/
def Builder.overfullLoop : Builder :=
  ((((new.add 0 (.type .class) .empty).add 1 (.member .initializer) .empty).add 2
    (.statement .block) .empty).add 3 (.statement .for)
      (((Attributes.empty.insert Key.init (.int Int64.maxValue)).insert Key.update
        (.int Int64.maxValue)).insert Key.condition (.flag true))).add 4 (.statement .empty) .empty

/-- The tree of `Builder.overfullLoop`. -/
def Tree.overfullLoop : Tree :=
  ⟨Builder.overfullLoop.arena, Builder.overfullLoop.ordered, by decide⟩

theorem Tree.built_overfullLoop : overfullLoop.Built := by
  have hreach : Builder.overfullLoop.Reachable :=
    .add (.add (.add (.add (.add (.start _ _) (by decide) _ _) (by decide) _ _) (by decide) _ _)
      (by decide) _ _) (by decide) _ _
  exact ⟨Builder.overfullLoop, hreach, Builder.finish_eq_ok_iff.2 ⟨by decide, rfl⟩⟩

theorem Tree.kind_overfullLoop {m : Cursor} (h : m.tree = overfullLoop) :
    m.kind ∈ [.compilationUnit, .type .class, .member .initializer, .statement .block,
      .statement .for, .statement .empty] := by
  obtain ⟨t, i, hi⟩ := m
  obtain rfl : t = overfullLoop := h
  revert i
  decide

/-- The `for` is reported, though the sum of its counts is the largest number
    of 64 bits. -/
theorem Printer.print_fails_exactly_overfullLoop :
    Tree.overfullLoop.Built ∧ print {} Tree.overfullLoop.root =
      .error (.reported (.missingChild (.statement .for) "body")) := by
  have hbuilt := Tree.built_overfullLoop
  let loop : Cursor := ⟨Tree.overfullLoop, 4, by decide⟩
  have hlacks : loop.Lacks "body" := .forBody (by decide)
  obtain ⟨herror, hfails, -, -⟩ := print_fails_exactly (n := Tree.overfullLoop.root) hbuilt {}
  have hsizes : ∀ m, Tree.overfullLoop.root.Contains m → ¬m.Oversized := by
    intro m hm hsize
    have hkind := Tree.kind_overfullLoop hm.tree_eq
    rw [hsize.1] at hkind
    exact absurd hkind (by decide)
  obtain ⟨e, he⟩ := (hfails (by decide) hsizes).2
    ⟨loop, "body", Tree.root_contains hbuilt.linked loop rfl, hlacks⟩
  obtain ⟨-, m, role, hfirst, hm, rfl⟩ := (herror e).1 he
  -- No other node of the tree is of a kind that can lack a child.
  have hkind := Tree.kind_overfullLoop (Cursor.mem_postorder.1 hfirst.mem).tree_eq
  have hlacked : m.kind = .statement .for ∧ role = "body" := by
    unfold Cursor.Lacks at hm
    generalize m.kind = k, m.children.map Cursor.kind = ks at hm hkind
    cases hm with
    | forBody => exact ⟨rfl, rfl⟩
    | _ => simp at hkind
  rw [hlacked.1, hlacked.2] at he
  exact ⟨hbuilt, he⟩

/-- An initializer block with two statements: the creation of an array of
    `2 ^ 62` dimensions, and a lambda that is only a parameter. -/
def Builder.hiddenLambda : Builder :=
  let block := ((new.add 0 (.type .class) .empty).add 1 (.member .initializer) .empty).add 2
    (.statement .block) .empty
  let array := (block.add 3 (.statement .expression) .empty).add 4 (.expression .arrayCreation)
    (Attributes.empty.insert Key.extraDims (.int 4611686018427387904))
  ((array.add 3 (.statement .expression) .empty).add 6 (.expression .lambda) .empty).add 7
    .parameter .empty

/-- The tree of `Builder.hiddenLambda`. -/
def Tree.hiddenLambda : Tree :=
  ⟨Builder.hiddenLambda.arena, Builder.hiddenLambda.ordered, by decide⟩

theorem Tree.built_hiddenLambda : hiddenLambda.Built := by
  have hreach : Builder.hiddenLambda.Reachable := by
    iterate 8 refine Builder.Reachable.add ?_ (by decide) _ _
    exact .start _ _
  exact ⟨Builder.hiddenLambda, hreach, Builder.finish_eq_ok_iff.2 ⟨by decide, rfl⟩⟩

/-- The lambda lacks its body, and this is not reported: the array before it
    breaks printing off. -/
theorem Printer.array_hides_missing_child :
    Tree.hiddenLambda.Built ∧
      (∃ m, Tree.hiddenLambda.root.Contains m ∧ m.Lacks "body") ∧
      print {} Tree.hiddenLambda.root = .error (.panicked .capacity) ∧
      ¬∃ e, print {} Tree.hiddenLambda.root = .error (.reported e) := by
  have hbuilt := Tree.built_hiddenLambda
  let lambda : Cursor := ⟨Tree.hiddenLambda, 7, by decide⟩
  have hlacks : lambda.Lacks "body" := .lambdaBody (by decide)
  let node (i : Fin 9) : Cursor := ⟨Tree.hiddenLambda, i, Nat.lt_of_lt_of_eq i.isLt rfl⟩
  have hpostorder : Tree.hiddenLambda.root.postorder = [5, 4, 8, 7, 6, 3, 2, 1, 0].map node := by
    have h0 : Tree.hiddenLambda.root.children = [node 1] := rfl
    have h1 : (node 1).children = [node 2] := rfl
    have h2 : (node 2).children = [node 3] := rfl
    have h3 : (node 3).children = [node 4, node 6] := rfl
    have h4 : (node 4).children = [node 5] := rfl
    have h5 : (node 5).children = [] := rfl
    have h6 : (node 6).children = [node 7] := rfl
    have h7 : (node 7).children = [node 8] := rfl
    have h8 : (node 8).children = [] := rfl
    simp only [Cursor.postorder_eq, h0, h1, h2, h3, h4, h5, h6, h7, h8, List.flatMap_cons,
      List.flatMap_nil]
    rfl
  -- The array creation is the first node on the way up.
  have hover : Tree.hiddenLambda.root.Overflows :=
    ⟨node 5, ⟨rfl, by decide, by decide⟩, [], _, hpostorder, nofun⟩
  have hprint : print {} Tree.hiddenLambda.root = .error (.panicked .capacity) :=
    (print_panics_iff hbuilt.linked {} .capacity).2 ⟨rfl, .inr hover⟩
  refine ⟨hbuilt, ⟨lambda, Tree.root_contains hbuilt.linked lambda rfl, hlacks⟩, hprint, ?_⟩
  rintro ⟨e, he⟩
  rw [he] at hprint
  cases hprint

end JavaTree
