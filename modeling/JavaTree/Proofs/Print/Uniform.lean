import JavaTree.Proofs.Print.Gaps
import JavaTree.Proofs.Print.Template

/-! # Templates do not look into gaps

    Texts that depend on a character are uniform if one fragment with gaps
    gives all of them (`Uniform`).  What is put together from uniform texts
    is uniform, and templates do no more than that: if the parts of a node
    are uniform, so is the node (`Template.uniform_node`). -/

namespace JavaTree

/-! ## Section 1: Uniform texts -/

/-- The texts differ in the character that fills the gaps of one fragment. -/
def Uniform (f : Char → Fragment) : Prop := ∃ g : GapFragment, ∀ c, Filler c → f c = g.fill c

/-- The answers are one failure, or differ in the character that fills the
    gaps of one fragment. -/
def UniformAnswer (r : Char → Except RenderFailure Fragment) : Prop :=
  ∃ g : Except RenderFailure GapFragment, ∀ c, Filler c → r c = g.map (·.fill c)

namespace Uniform

variable {f g : Char → Fragment}

theorem const (f : Fragment) : Uniform fun _ => f :=
  ⟨.ofFragment f, fun c _ => (GapFragment.fill_ofFragment c f).symm⟩

theorem fill (g : GapFragment) : Uniform fun c => g.fill c := ⟨g, fun _ _ => rfl⟩

theorem append (hf : Uniform f) (hg : Uniform g) : Uniform fun c => f c ++ g c := by
  obtain ⟨f', hf⟩ := hf
  obtain ⟨g', hg⟩ := hg
  refine ⟨f'.append g', fun c hc => ?_⟩
  show f c ++ g c = _
  rw [hf c hc, hg c hc, GapFragment.fill_append]

theorem nest (hf : Uniform f) (hg : Uniform g) : Uniform fun c => (f c).nest (g c) := by
  obtain ⟨f', hf⟩ := hf
  obtain ⟨g', hg⟩ := hg
  refine ⟨f'.nest g', fun c hc => ?_⟩
  show (f c).nest (g c) = _
  rw [hf c hc, hg c hc, GapFragment.fill_nest]

theorem trimSemicolons (hf : Uniform f) : Uniform fun c => (f c).trimSemicolons := by
  obtain ⟨f', hf⟩ := hf
  refine ⟨f'.trimSemicolons, fun c hc => ?_⟩
  show (f c).trimSemicolons = _
  rw [hf c hc, GapFragment.fill_trimSemicolons hc]

theorem ite {p : Prop} [Decidable p] (hf : Uniform f) (hg : Uniform g) :
    Uniform fun c => if p then f c else g c := by
  by_cases h : p
  · simpa only [if_pos h] using hf
  · simpa only [if_neg h] using hg

/-- A choice that does not depend on the filler. -/
theorem ite_bool {test : Char → Bool} {b : Bool} (h : ∀ c, Filler c → test c = b)
    (hf : Uniform f) (hg : Uniform g) : Uniform fun c => if test c then f c else g c := by
  obtain ⟨f', hf⟩ := hf
  obtain ⟨g', hg⟩ := hg
  cases b with
  | true => exact ⟨f', fun c hc => (if_pos (h c hc)).trans (hf c hc)⟩
  | false => exact ⟨g', fun c hc => (if_neg (ne_true_of_eq_false (h c hc))).trans (hg c hc)⟩

/-- Whether a text is empty does not depend on the filler. -/
theorem ite_isEmpty {k : Char → Fragment} (hk : Uniform k) (hf : Uniform f) (hg : Uniform g) :
    Uniform fun c => if (k c).isEmpty then f c else g c := by
  obtain ⟨k', hk⟩ := hk
  refine ite_bool (b := k'.head.isEmpty && k'.tail.isEmpty) (fun c hc => ?_) hf hg
  rw [hk c hc, GapFragment.isEmpty_fill]

/-- Whether an operator would run together with a text does not depend on it
    either, for a filler is no sign. -/
theorem ite_mergesWith {k : Char → Fragment} (operator : String) (hk : Uniform k)
    (hf : Uniform f) (hg : Uniform g) :
    Uniform fun c => if Template.mergesWith operator (k c) then f c else g c := by
  obtain ⟨k', hk⟩ := hk
  refine ite_bool (b := Template.mergesWith operator (k'.fill lineMark)) (fun c hc => ?_) hf hg
  have hfirst : ∀ d, (k'.fill d).firstChar? = k'.head.head?.map (·.getD d) := by
    intro d
    rw [Fragment.firstChar?, GapFragment.fill, GapText.toList_fill, List.head?_map]
  have hplus : c ≠ '+' := hc.ne (by decide)
  have hminus : c ≠ '-' := hc.ne (by decide)
  rw [hk c hc, Template.mergesWith, Template.mergesWith, hfirst, hfirst]
  cases k'.head.head? with
  | none => rfl
  | some o =>
    cases o with
    | some d => rfl
    | none =>
      cases operator.toList.getLast? with
      | none => rfl
      | some last => simp [hplus, hminus, lineMark]

end Uniform

namespace UniformAnswer

theorem pure {f : Char → Fragment} (hf : Uniform f) :
    UniformAnswer fun c => (Pure.pure (f c) : Except RenderFailure Fragment) := by
  obtain ⟨f', hf⟩ := hf
  exact ⟨.ok f', fun c hc => congrArg Except.ok (hf c hc)⟩

theorem error (e : RenderFailure) : UniformAnswer fun _ => .error e := ⟨.error e, fun _ _ => rfl⟩

theorem ite {r s : Char → Except RenderFailure Fragment} {p : Prop} [Decidable p]
    (hr : UniformAnswer r) (hs : UniformAnswer s) :
    UniformAnswer fun c => if p then r c else s c := by
  by_cases h : p
  · simpa only [if_pos h] using hr
  · simpa only [if_neg h] using hs

end UniformAnswer

/-! ## Section 2: Uniform parts -/

/-- A child with its source text, in which there may be gaps.  The
    attributes may depend on the filler, unless the child is a parameter. -/
structure GapPart where
  /-- Kind of the child. -/
  kind : Kind
  /-- Attributes of the child. -/
  attributes : Char → Attributes
  /-- Whether the child ends in an `if` that would take a following `else`. -/
  endsInOpenIf : Bool
  /-- Source text of the child. -/
  body : GapFragment
  /-- Templates look at the attributes of parameters. -/
  fixed : kind = .parameter → ∀ c d, attributes c = attributes d

namespace GapPart

/-- Fill all gaps of the part. -/
def fill (c : Char) (p : GapPart) : Part Fragment :=
  ⟨p.kind, p.attributes c, p.endsInOpenIf, p.body.fill c⟩

theorem kind_fill (c : Char) (p : GapPart) : (p.fill c).kind = p.kind := rfl

theorem uniform_body (p : GapPart) : Uniform fun c => (p.fill c).body := .fill p.body

end GapPart

namespace Uniform

variable {ps : List GapPart} {text : Part Fragment → Fragment}

theorem join (sep : String) (h : ∀ p ∈ ps, Uniform fun c => text (p.fill c)) :
    Uniform fun c => Fragment.join sep ((ps.map (·.fill c)).map text) := by
  induction ps with
  | nil => exact .const _
  | cons p ps ih =>
    have hp := h p List.mem_cons_self
    have hps := ih fun q hq => h q (List.mem_cons_of_mem p hq)
    cases ps with
    | nil => exact hp
    | cons q ps => exact .append hp (.append (.const _) hps)

theorem joinEnding (ending : String) (h : ∀ p ∈ ps, Uniform fun c => text (p.fill c)) :
    Uniform fun c => Fragment.joinEnding ending ((ps.map (·.fill c)).map text) := by
  induction ps with
  | nil => exact .const _
  | cons p ps ih =>
    have hps := ih fun q hq => h q (List.mem_cons_of_mem p hq)
    exact .append (h p List.mem_cons_self) (.append (.const _) hps)

theorem foldl_append {f : Char → Fragment} (hf : Uniform f) (sep : Fragment) :
    Uniform fun c => (ps.map (·.fill c)).foldl (fun f p => f ++ sep ++ p.body) (f c) := by
  induction ps generalizing f with
  | nil => exact hf
  | cons p ps ih => exact ih (.append (.append hf (.const sep)) p.uniform_body)

end Uniform

/-- A required part is missing whatever the filler is, or is there. -/
theorem UniformAnswer.required {kind : Kind} {ps : List GapPart} {i : Nat} {role : String}
    {next : Char → Part Fragment → Except RenderFailure Fragment}
    (h : ∀ p ∈ ps, UniformAnswer fun c => next c (p.fill c)) :
    UniformAnswer fun c => Template.required kind (ps.map (·.fill c)) i role >>= next c := by
  unfold Template.required
  simp only [List.getElem?_map]
  cases hp : ps[i]? with
  | none => exact .error _
  | some p => exact h p (List.mem_of_getElem? hp)

namespace Template

/-! ## Section 3: Templates for declarations -/

variable (a : Attributes) (ps : List GapPart)

theorem uniform_list (sep : String) : Uniform fun c => list sep (ps.map (·.fill c)) :=
  .join sep fun p _ => p.uniform_body

theorem uniform_ownLines : Uniform fun c => ownLines (ps.map (·.fill c)) :=
  .joinEnding "\n" fun p _ => p.uniform_body

theorem uniform_spaced : Uniform fun c => spaced (ps.map (·.fill c)) :=
  .joinEnding " " fun p _ => p.uniform_body

theorem uniform_items : Uniform fun c => items (ps.map (·.fill c)) := by
  induction ps with
  | nil => exact .const _
  | cons p ps ih =>
    cases ps with
    | nil => exact p.uniform_body
    | cons q ps =>
      -- Which break comes between them depends on the two kinds only.
      let tight := p.kind.isComment || (p.kind = .importDecl && q.kind = .importDecl)
      exact .append p.uniform_body
        (.append (.const ((if tight then "\n" else "\n\n" : String) : Fragment)) ih)

theorem uniform_braced {f : Char → Fragment} (hf : Uniform f) : Uniform fun c => braced (f c) :=
  .ite_isEmpty hf (.const _) (.append (.nest (.const _) hf) (.const _))

theorem uniform_controlled {f : Char → Fragment} (hf : Uniform f) (p : GapPart) :
    Uniform fun c => controlled (f c) (p.fill c) := by
  unfold controlled
  exact .ite_bool (fun c _ => congrArg Kind.isBlock (p.kind_fill c))
    (.append (.append hf (.const _)) p.uniform_body) (.nest hf p.uniform_body)

theorem uniform_typeParameters : Uniform fun c => typeParameters (ps.map (·.fill c)) := by
  unfold typeParameters
  simp only [List.isEmpty_map]
  exact .ite (.const _) (.append (.append (.const _) (uniform_list _ _)) (.const _))

theorem uniform_typeBody (kind : TypeKind) :
    Uniform fun c => typeBody kind (ps.map (·.fill c)) := by
  unfold typeBody
  simp only [ofKind_map (GapPart.kind_fill _), notOfKind_map (GapPart.kind_fill _),
    List.isEmpty_map]
  exact .ite (.ite (uniform_list _ _)
    (.append (.append (uniform_list _ _) (.const _)) (uniform_items _))) (uniform_items _)

theorem uniform_typeDecl (kind : TypeKind) :
    Uniform fun c => typeDecl kind a (ps.map (·.fill c)) := by
  unfold typeDecl
  simp only [annotationsOf_map (GapPart.kind_fill _), withoutAnnotations_map (GapPart.kind_fill _),
    ofKind_map (GapPart.kind_fill _), notOfKind_map (GapPart.kind_fill _)]
  apply_rules [Uniform.const, Uniform.append, Uniform.nest, Uniform.ite_isEmpty, uniform_ownLines,
    uniform_typeParameters, uniform_typeBody]

theorem uniform_callable (isMethod : Bool) :
    Uniform fun c => callable isMethod a (ps.map (·.fill c)) := by
  have htypes (qs : List GapPart) :
      Uniform fun c => callable.ofTextWithTypes a (qs.map (·.fill c)) := by
    unfold callable.ofTextWithTypes
    simp only [List.isEmpty_map]
    apply_rules [Uniform.const, Uniform.append, Uniform.ite, uniform_typeParameters]
  unfold callable
  simp only [ofKind_map (GapPart.kind_fill _), notOfKind_map (GapPart.kind_fill _)]
  cases (ps.filter (·.kind ≠ .typeParameter)).filter (·.kind ≠ .parameter) with
  | nil =>
    apply_rules [Uniform.const, Uniform.append, uniform_list]
  | cons p rest =>
    apply_rules [Uniform.const, Uniform.append, uniform_list, GapPart.uniform_body]

theorem uniform_packageDecl : Uniform fun c => packageDecl a (ps.map (·.fill c)) :=
  .append (uniform_ownLines ps) (.const _)

theorem uniform_parameter : Uniform fun c => parameter a (ps.map (·.fill c)) := by
  unfold parameter
  exact .ite (.const _) (.append (uniform_spaced ps) (.const _))

theorem uniform_variableDeclarator : Uniform fun c => variableDeclarator a (ps.map (·.fill c)) := by
  cases ps with
  | nil => exact .const _
  | cons p ps => exact .append (.const _) p.uniform_body

theorem uniform_typeParameter : Uniform fun c => typeParameter a (ps.map (·.fill c)) :=
  .append (uniform_spaced ps) (.const _)

theorem uniform_member (kind : MemberKind) :
    UniformAnswer fun c => member kind a (ps.map (·.fill c)) := by
  have hcomments (c : Char) : (ps.map (·.fill c)).filter (·.kind.isComment) =
      (ps.filter (·.kind.isComment)).map (·.fill c) := List.filter_map
  have hothers (c : Char) : (ps.map (·.fill c)).filter (!·.kind.isComment) =
      (ps.filter (!·.kind.isComment)).map (·.fill c) := List.filter_map
  unfold member
  simp only [hcomments, hothers, annotationsOf_map (GapPart.kind_fill _),
    withoutAnnotations_map (GapPart.kind_fill _)]
  generalize ps.filter (·.kind.isComment) = comments
  generalize ps.filter (!·.kind.isComment) = others
  cases kind with
  | method =>
    exact .pure (.append (.append (uniform_ownLines _) (uniform_ownLines _)) (uniform_callable ..))
  | constructor =>
    exact .pure (.append (.append (uniform_ownLines _) (uniform_ownLines _)) (uniform_callable ..))
  | field =>
    apply UniformAnswer.pure
    apply_rules [Uniform.const, Uniform.append, uniform_ownLines, uniform_list]
  | enumConstant =>
    simp only [List.isEmpty_map]
    apply_rules [UniformAnswer.ite, UniformAnswer.pure, Uniform.const, Uniform.append,
      uniform_ownLines, uniform_spaced, uniform_list]
  | annotationMember =>
    dsimp only
    cases others.filter (!·.kind.isAnnotationUse) with
    | nil =>
      apply_rules [UniformAnswer.pure, Uniform.const, Uniform.append, uniform_ownLines]
    | cons p rest =>
      apply_rules [UniformAnswer.pure, Uniform.const, Uniform.append, uniform_ownLines,
        GapPart.uniform_body]
  | initializer =>
    exact .required fun p _ =>
      .pure (.append (.append (uniform_ownLines _) (.const _)) p.uniform_body)

theorem uniform_catchClause : UniformAnswer fun c => catchClause (ps.map (·.fill c)) := by
  unfold catchClause
  simp only [ofKind_map (GapPart.kind_fill _), notOfKind_map (GapPart.kind_fill _)]
  refine .required fun p _ => .required fun q _ => ?_
  apply_rules [UniformAnswer.pure, Uniform.const, Uniform.append, GapPart.uniform_body]

theorem uniform_switchEntry : Uniform fun c => switchEntry a (ps.map (·.fill c)) := by
  unfold switchEntry
  simp only [← List.map_take, ← List.map_drop, List.isEmpty_map]
  apply_rules [Uniform.const, Uniform.ite, Uniform.append, Uniform.nest, uniform_list]

/-! ## Section 4: Templates for statements -/

theorem uniform_localVariable : Uniform fun c => localVariable a (ps.map (·.fill c)) := by
  unfold localVariable
  simp only [annotationsOf_map (GapPart.kind_fill _),
    withoutAnnotations_map (GapPart.kind_fill _)]
  apply_rules [Uniform.const, Uniform.append, uniform_spaced, uniform_list]

theorem uniform_conditional (p q : GapPart) (r : Option GapPart) :
    Uniform fun c => conditional (p.fill c) (q.fill c) (r.map (·.fill c)) := by
  have hheader : Uniform fun c => conditional.header (p.fill c) :=
    .append (.append (.const _) p.uniform_body) (.const _)
  cases r with
  | none => exact uniform_controlled hheader q
  | some e =>
    -- The braces and the place of `else` depend on the then-branch's kind and end.
    let wrap := !q.kind.isBlock && q.endsInOpenIf
    have hthen : Uniform fun c =>
        if wrap then conditional.header (p.fill c) ++ (" " : Fragment) ++ braced (q.fill c).body
        else controlled (conditional.header (p.fill c)) (q.fill c) :=
      .ite (.append (.append hheader (.const _)) (uniform_braced q.uniform_body))
        (uniform_controlled hheader q)
    have hupper := hthen.append
      (.const ((if q.kind.isBlock || wrap then " else" else "\nelse" : String) : Fragment))
    exact Uniform.ite (p := e.kind = .statement .conditional)
      (.append (.append hupper (.const _)) e.uniform_body) (uniform_controlled hupper e)

theorem uniform_trimmed (sep : String) :
    Uniform fun c => Fragment.join sep ((ps.map (·.fill c)).map (·.body.trimSemicolons)) :=
  .join sep fun p _ => .trimSemicolons p.uniform_body

theorem uniform_forLoop : UniformAnswer fun c => forLoop a (ps.map (·.fill c)) := by
  unfold forLoop
  simp only [← List.map_take, ← List.map_drop]
  refine .required fun p _ => .pure (uniform_controlled ?_ p)
  apply_rules [Uniform.const, Uniform.append, uniform_trimmed, uniform_list]

theorem uniform_tryCatch : UniformAnswer fun c => tryCatch a (ps.map (·.fill c)) := by
  unfold tryCatch
  simp only [← List.map_take, ← List.map_drop, ← List.map_dropLast, List.getLast?_map]
  refine .required fun p _ => ?_
  have hopened : Uniform fun c =>
      (if a.count Key.resources = 0 then ("try " : Fragment)
      else ("try (" : Fragment) ++ Fragment.join "; " (((ps.take (a.count Key.resources)).map
        (·.fill c)).map (·.body.trimSemicolons)) ++ (") " : Fragment)) ++ (p.fill c).body := by
    apply_rules [Uniform.const, Uniform.ite, Uniform.append, uniform_trimmed, GapPart.uniform_body]
  cases a.flag Key.hasFinally with
  | false => exact .pure (hopened.foldl_append _)
  | true =>
    cases (ps.drop (a.count Key.resources + 1)).getLast? with
    | none => exact .pure (hopened.foldl_append _)
    | some last =>
      exact .pure (.append (.append (hopened.foldl_append _) (.const _)) last.uniform_body)

theorem uniform_statement (kind : StatementKind) :
    UniformAnswer fun c => statement kind a (ps.map (·.fill c)) := by
  cases kind with
  | block => exact .pure (uniform_braced (uniform_list ..))
  | expression => exact .required fun p _ => .pure (.append p.uniform_body (.const _))
  | localVariable => exact .pure (uniform_localVariable ..)
  | conditional =>
    refine .required fun p _ => .required fun q _ => .pure ?_
    simp only [List.getElem?_map]
    exact uniform_conditional p q _
  | «for» => exact uniform_forLoop ..
  | forEach =>
    refine .required fun p _ => .required fun q _ => .pure (uniform_controlled ?_ q)
    apply_rules [Uniform.const, Uniform.append, GapPart.uniform_body]
  | «while» =>
    refine .required fun p _ => .required fun q _ => .pure (uniform_controlled ?_ q)
    apply_rules [Uniform.const, Uniform.append, GapPart.uniform_body]
  | doWhile =>
    refine .required fun p _ => .required fun q _ => .pure ?_
    have hdo := uniform_controlled (.const ("do" : Fragment)) p
    have hend := hdo.append
      (.const (((if p.kind.isBlock then " " else "\n") ++ "while (" : String) : Fragment))
    exact (hend.append q.uniform_body).append (.const _)
  | switch =>
    refine .required fun p _ => .pure ?_
    simp only [← List.map_drop]
    apply_rules [Uniform.const, Uniform.append, GapPart.uniform_body, uniform_braced, uniform_list]
  | tryCatch => exact uniform_tryCatch ..
  | throw =>
    exact .required fun p _ => .pure (.append (.append (.const _) p.uniform_body) (.const _))
  | «return» =>
    cases ps with
    | nil => exact .pure (.const _)
    | cons p ps => exact .pure (.append (.append (.const _) p.uniform_body) (.const _))
  | «break» | «continue» | empty => exact .pure (.const _)
  | assert =>
    refine .required fun p _ => ?_
    simp only [List.getElem?_map]
    cases ps[1]? with
    | none => exact .pure (.append (.append (.const _) p.uniform_body) (.const _))
    | some q =>
      apply_rules [UniformAnswer.pure, Uniform.const, Uniform.append, GapPart.uniform_body]
  | synchronized =>
    refine .required fun p _ => .required fun q _ => .pure (uniform_controlled ?_ q)
    apply_rules [Uniform.const, Uniform.append, GapPart.uniform_body]
  | labeled => exact .required fun p _ => .pure (.append (.const _) p.uniform_body)
  | localClass => exact .required fun p _ => .pure p.uniform_body
  | constructorCall => exact .pure (.append (.append (.const _) (uniform_list ..)) (.const _))

/-! ## Section 5: Templates for expressions -/

theorem uniform_arrayCreation : UniformAnswer fun c => arrayCreation a (ps.map (·.fill c)) := by
  have hsizes (qs : List GapPart) : Uniform fun c => Fragment.join "" ((qs.map (·.fill c)).map
      fun p => ("[" : Fragment) ++ p.body ++ ("]" : Fragment)) :=
    .join "" fun p _ => .append (.append (.const _) p.uniform_body) (.const _)
  unfold arrayCreation
  simp only [ofKind_map (GapPart.kind_fill _), notOfKind_map (GapPart.kind_fill _),
    List.getLast?_map]
  -- How many brackets there are does not depend on the filler, nor does the room for them.
  cases Text.repeated (a.count Key.extraDims) "[]" with
  | error e => exact .error (.panicked e)
  | ok groups =>
    cases (ps.filter (·.kind = .expression .arrayInitializer)).getLast? with
    | none => exact .pure (.append (.append (.const _) (hsizes _)) (.const _))
    | some init =>
      exact .pure (.append (.append (.append (.append (.const _) (hsizes _)) (.const _))
        (.const _)) init.uniform_body)

theorem uniform_unary {f : Char → Fragment} (hf : Uniform f) : Uniform fun c => unary a (f c) :=
  .ite (.append hf (.const _))
    (.ite_mergesWith _ hf (.append (.const _) hf) (.append (.const _) hf))

theorem uniform_lambda : UniformAnswer fun c => lambda (ps.map (·.fill c)) := by
  have hlast (c : Char) : (ps.map (·.fill c)).getLast?.toList.filter (·.kind ≠ .parameter) =
      (ps.getLast?.toList.filter (·.kind ≠ .parameter)).map (·.fill c) := by
    rw [List.getLast?_map]
    cases ps.getLast? with
    | none => rfl
    | some p =>
      show ([p].map (·.fill c)).filter (·.kind ≠ .parameter) = _
      exact List.filter_map
  unfold lambda
  simp only [ofKind_map (GapPart.kind_fill _), hlast]
  refine .required fun body _ => ?_
  have hkinds : ∀ p ∈ ps.filter (·.kind = .parameter), p.kind = .parameter := by
    intro p hp
    simpa using (List.mem_filter.1 hp).2
  generalize ps.filter (·.kind = .parameter) = params at hkinds ⊢
  have hmany : UniformAnswer fun c => Pure.pure (("(" : Fragment)
      ++ list ", " (params.map (·.fill c)) ++ (") -> " : Fragment) ++ (body.fill c).body) := by
    apply_rules [UniformAnswer.pure, Uniform.const, Uniform.append, uniform_list,
      GapPart.uniform_body]
  match params, hkinds, hmany with
  | [], _, hmany => exact hmany
  | [p], hkinds, _ =>
    have hattributes (c : Char) : (p.fill c).attributes = p.attributes lineMark :=
      p.fixed (hkinds p List.mem_cons_self) c lineMark
    simp only [List.map_cons, List.map_nil, hattributes]
    apply_rules [UniformAnswer.ite, UniformAnswer.pure, Uniform.const, Uniform.append,
      GapPart.uniform_body]
  | p :: q :: rest, _, hmany => exact hmany

theorem uniform_expression {kind : ExpressionKind} (hkind : kind ≠ .literal) :
    UniformAnswer fun c => expression kind a (ps.map (·.fill c)) := by
  cases kind with
  | literal => exact absurd rfl hkind
  | name | this | super | classLiteral => exact .pure (.const _)
  | fieldAccess | methodReference | instanceOf =>
    exact .required fun p _ => .pure (.append p.uniform_body (.const _))
  | methodCall =>
    refine .ite (.required fun p _ => .pure ?_) (.pure ?_)
    · simp only [← List.map_drop]
      apply_rules [Uniform.const, Uniform.append, GapPart.uniform_body, uniform_list]
    · apply_rules [Uniform.const, Uniform.append, uniform_list]
  | objectCreation | arrayInitializer =>
    exact .pure (.append (.append (.const _) (uniform_list ..)) (.const _))
  | arrayCreation => exact uniform_arrayCreation ..
  | arrayAccess =>
    refine .required fun p _ => .required fun q _ => .pure ?_
    apply_rules [Uniform.const, Uniform.append, GapPart.uniform_body]
  | unary => exact .required fun p _ => .pure (uniform_unary a p.uniform_body)
  | binary | assign =>
    exact .required fun p _ => .required fun q _ =>
      .pure (.append (.append p.uniform_body (.const _)) q.uniform_body)
  | conditional =>
    refine .required fun p _ => .required fun q _ => .required fun r _ => .pure ?_
    apply_rules [Uniform.const, Uniform.append, GapPart.uniform_body]
  | cast => exact .required fun p _ => .pure (.append (.const _) p.uniform_body)
  | enclosed =>
    exact .required fun p _ => .pure (.append (.append (.const _) p.uniform_body) (.const _))
  | lambda => exact uniform_lambda ..
  | annotationUse =>
    unfold expression
    simp only [List.isEmpty_map]
    exact .ite (.pure (.const _))
      (.pure (.append (.append (.const _) (uniform_list ..)) (.const _)))

/-! ## Section 6: All kinds -/

/-- From uniform parts every template makes a uniform answer. -/
theorem uniform_node {kind : Kind} (hkind : kind ≠ .expression .literal) :
    UniformAnswer fun c => node kind a (ps.map (·.fill c)) := by
  cases kind with
  | compilationUnit => exact .pure (uniform_items ps)
  | packageDecl => exact .pure (uniform_packageDecl a ps)
  | importDecl => exact .pure (.const _)
  | type k => exact .pure (uniform_typeDecl a ps k)
  | member k => exact uniform_member a ps k
  | parameter => exact .pure (uniform_parameter a ps)
  | variableDeclarator => exact .pure (uniform_variableDeclarator a ps)
  | typeParameter => exact .pure (uniform_typeParameter a ps)
  | catchClause => exact uniform_catchClause ps
  | switchEntry => exact .pure (uniform_switchEntry a ps)
  | statement k => exact uniform_statement a ps k
  | expression k => exact uniform_expression a ps fun hk => hkind (congrArg _ hk)
  | comment k => exact .pure (.const _)

end Template

end JavaTree
