import JavaTree.Proofs.Print.Structural
import JavaTree.Proofs.Print.Occurrence
import JavaTree.Proofs.Print.Selection

/-! # Children shown in their parents

    White space and semicolons aside, the text of a child occurs in the text
    of its parent in one piece, provided that the template of the parent
    selects the child.  Templates only move texts, indent them and put other
    texts around them, so this is shown template by template
    (`Template.shown_node`), and carries over from step to step to everything
    below a node (`Printer.occurs_of_shows`).

    A child that is not selected leaves no trace at all.  The main statement
    says both (`Printer.selected_children_occur`). -/

namespace JavaTree

open JavaTree.Part (AllShown)

/-! ## Section 1: Answers -/

/-- An answer shows parts if it is a failure or a text that shows them. -/
def ShownAnswer (ps : List (Part Fragment)) (r : Except RenderFailure Fragment) : Prop :=
  ∀ f, r = .ok f → AllShown ps f

namespace ShownAnswer

variable {ps : List (Part Fragment)}

theorem pure {f : Fragment} (h : AllShown ps f) :
    ShownAnswer ps (Pure.pure f : Except RenderFailure Fragment) := by
  intro g hg
  obtain rfl := Except.ok.inj hg
  exact h

theorem error (e : RenderFailure) : ShownAnswer ps (.error e) := by
  intro f hf
  cases hf

theorem none (r : Except RenderFailure Fragment) : ShownAnswer [] r := fun _ _ => .nil

end ShownAnswer

namespace Template

/-! ## Section 2: Layout of bodies -/

variable {a : Attributes}

theorem shown_list (sep : String) (ps : List (Part Fragment)) :
    AllShown ps (list sep ps) := fun _ hp =>
  .join sep (List.mem_map_of_mem hp)

theorem shown_ownLines (ps : List (Part Fragment)) : AllShown ps (ownLines ps) := fun _ hp =>
  .joinEnding "\n" (List.mem_map_of_mem hp)

theorem shown_spaced (ps : List (Part Fragment)) : AllShown ps (spaced ps) := fun _ hp =>
  .joinEnding " " (List.mem_map_of_mem hp)

/-- Semicolons at the end do not count. -/
theorem shown_trimmed (sep : String) (ps : List (Part Fragment)) :
    AllShown ps (Fragment.join sep (ps.map (·.body.trimSemicolons))) := by
  intro p hp
  have htrimmed := Fragment.Occurs.join sep (List.mem_map_of_mem (f := (·.body.trimSemicolons)) hp)
  rwa [Fragment.Occurs, Fragment.bare_trimSemicolons] at htrimmed

theorem shown_items (ps : List (Part Fragment)) : AllShown ps (items ps) := by
  induction ps with
  | nil => exact .nil
  | cons p ps ih =>
    cases ps with
    | nil => exact .single (.refl _)
    | cons q ps => exact .cons (.front ..) ((ih.right _).right _)

theorem occurs_braced (body : Fragment) : body.Occurs (braced body) := by
  unfold braced
  split
  · rename_i hempty
    exact (Fragment.Occurs.refl body).of_isEmpty hempty
  · exact ((Fragment.Occurs.refl body).nest_right _).left _

theorem occurs_controlled_header (header : Fragment) (body : Part Fragment) :
    header.Occurs (controlled header body) := by
  unfold controlled
  split
  · exact (Fragment.Occurs.front ..).left _
  · exact (Fragment.Occurs.refl header).nest_left _

theorem occurs_controlled_body (header : Fragment) (body : Part Fragment) :
    body.body.Occurs (controlled header body) := by
  unfold controlled
  split
  · exact .back ..
  · exact (Fragment.Occurs.refl _).nest_right _

/-- A control statement shows what stands in the parentheses, and its body. -/
theorem shown_controlled (opening closing : Fragment) (condition body : Part Fragment) :
    AllShown [condition, body] (controlled (opening ++ condition.body ++ closing) body) :=
  .pair ((Fragment.Occurs.middle ..).trans (occurs_controlled_header _ body))
    (occurs_controlled_body _ body)

/-! ## Section 3: Declarations -/

theorem shown_typeParameters (ps : List (Part Fragment)) : AllShown ps (typeParameters ps) := by
  unfold typeParameters
  split
  · exact .of_isEmpty ‹_›
  · exact ((shown_list ", " ps).right _).left _

theorem shown_typeBody (kind : TypeKind) (ps : List (Part Fragment)) :
    AllShown ps (typeBody kind ps) := by
  unfold typeBody
  split
  · apply AllShown.of_kind (.member .enumConstant)
    · dsimp only
      split
      · exact shown_list _ _
      · exact ((shown_list _ _).left _).left _
    · dsimp only
      split
      · exact .of_isEmpty ‹_›
      · exact (shown_items _).right _
  · exact shown_items ps

theorem shown_typeDecl (kind : TypeKind) (ps : List (Part Fragment)) :
    AllShown ps (typeDecl kind a ps) := by
  unfold typeDecl
  extract_lets annotations rest header body
  have hannotations : AllShown annotations header :=
    (((shown_ownLines annotations).left _).left _).left _
  have htypes : AllShown (ofKind .typeParameter rest) header :=
    ((shown_typeParameters _).right _).left _
  have hmembers : AllShown (notOfKind .typeParameter rest) body := shown_typeBody kind _
  split
  · rename_i hempty
    refine .of_annotations (hannotations.left _) (.of_kind .typeParameter (htypes.left _) ?_)
    -- Members may be without text, and then they occur anywhere.
    exact fun p hp => (hmembers p hp).of_isEmpty hempty
  · have hheader : header.Occurs ((header ++ (" \x7b\n" : Fragment)).nest body
        ++ ("\n\x7d" : Fragment)) := ((Fragment.Occurs.front ..).nest_left _).left _
    have hbody : body.Occurs ((header ++ (" \x7b\n" : Fragment)).nest body
        ++ ("\n\x7d" : Fragment)) := ((Fragment.Occurs.refl body).nest_right _).left _
    exact .of_annotations (hannotations.within hheader)
      (.of_kind .typeParameter (htypes.within hheader) (hmembers.within hbody))

theorem tail_eq_nil {p : Part Fragment} {ps : List (Part Fragment)}
    (h : (p :: ps).length ≤ 1) : ps = [] :=
  List.eq_nil_of_length_eq_zero (Nat.le_zero.1 (Nat.le_of_succ_le_succ h))

/-- A method or a constructor with one body at most shows all its parts. -/
theorem shown_callable (isMethod : Bool) {ps : List (Part Fragment)}
    (h : (notOfKind .parameter (notOfKind .typeParameter ps)).length ≤ 1) :
    AllShown ps (callable isMethod a ps) := by
  unfold callable
  extract_lets types rest header
  have htypes : AllShown types header := by
    have hopening : AllShown types (callable.ofTextWithTypes a types) := by
      unfold callable.ofTextWithTypes
      split
      · exact .of_isEmpty ‹_›
      · exact ((shown_typeParameters types).right _).left _
    exact ((hopening.left _).left _).left _
  have hparams : AllShown (ofKind .parameter rest) header := ((shown_list ", " _).right _).left _
  split
  · rename_i body others hbody
    have hone : notOfKind .parameter rest = [body] := by
      rw [hbody] at h
      rw [hbody, tail_eq_nil h]
    refine .of_kind .typeParameter ((htypes.left _).left _)
      (.of_kind .parameter ((hparams.left _).left _) ?_)
    rw [hone]
    exact .single (.back ..)
  · rename_i hbody
    refine .of_kind .typeParameter (htypes.left _) (.of_kind .parameter (hparams.left _) ?_)
    rw [hbody]
    exact .nil

theorem shown_member (kind : MemberKind) (ps : List (Part Fragment)) :
    ShownAnswer (select kind.selection ps) (member kind a ps) := by
  -- The text is that of the selected parts, among which there is nothing in excess.
  rw [← member_select]
  cases kind with
  | method | constructor =>
    have hone := length_filter_keepFirst_le (Kind.isCallableBody ∘ Part.kind) ps
    simp only [select, MemberKind.selection, Selection.select, member]
    rw [← bodies_eq] at hone
    exact .pure (.of_comments (((shown_ownLines _).left _).left _)
      (.of_annotations (((shown_ownLines _).right _).left _) ((shown_callable _ hone).right _)))
  | field =>
    simp only [select, MemberKind.selection, Selection.select, member]
    exact .pure (.of_comments (((((shown_ownLines _).left _).left _).left _).left _)
      (.of_annotations (((((shown_ownLines _).right _).left _).left _).left _)
        (((shown_list _ _).right _).left _)))
  | enumConstant =>
    simp only [select, MemberKind.selection, Selection.select, member]
    split
    · rename_i hempty
      exact .pure (.of_comments (((shown_ownLines _).left _).left _)
        (.of_annotations (((shown_spaced _).right _).left _) (.of_isEmpty hempty)))
    · exact .pure (.of_comments ((((((shown_ownLines _).left _).left _).left _).left _).left _)
        (.of_annotations ((((((shown_spaced _).right _).left _).left _).left _).left _)
          (((shown_list _ _).right _).left _)))
  | annotationMember =>
    have hone := length_filter_keepFirst_le
      ((fun k => !(k.isComment || k.isAnnotationUse)) ∘ Part.kind) ps
    simp only [select, MemberKind.selection, Selection.select, member]
    rw [← withoutAnnotations_eq] at hone
    split
    · rename_i value rest hvalue
      rw [hvalue] at hone
      refine .pure (.of_comments ((((((shown_ownLines _).left _).left _).left _).left _).left _)
        (.of_annotations ((((((shown_ownLines _).right _).left _).left _).left _).left _) ?_))
      rw [hvalue, tail_eq_nil hone]
      exact .single (.middle ..)
    · rename_i hnone
      refine .pure (.of_comments ((((shown_ownLines _).left _).left _).left _)
        (.of_annotations ((((shown_ownLines _).right _).left _).left _) ?_))
      rw [hnone]
      exact .nil
  | initializer =>
    have hone := length_filter_keepFirst_le ((!·.isComment) ∘ Part.kind) (withoutAnnotations ps)
    have hclean := withoutAnnotations_keepFirst ((!·.isComment) ∘ Part.kind) ps
    show ShownAnswer (keepFirst ((!·.isComment) ∘ Part.kind) (withoutAnnotations ps))
      (member .initializer a (keepFirst ((!·.isComment) ∘ Part.kind) (withoutAnnotations ps)))
    generalize keepFirst ((!·.isComment) ∘ Part.kind) (withoutAnnotations ps) = qs at hone hclean
    have hrest : withoutAnnotations (qs.filter (!·.kind.isComment)) =
        qs.filter ((!·.isComment) ∘ Part.kind) := by rw [withoutAnnotations_comm, hclean]
    unfold member
    dsimp only
    rw [hrest]
    cases hbody : qs.filter ((!·.isComment) ∘ Part.kind) with
    | nil => exact .error _
    | cons body others =>
      rw [hbody] at hone
      refine .pure (.of_comments (((shown_ownLines _).left _).left _) ?_)
      rw [show qs.filter (!·.kind.isComment) = body :: others from hbody, tail_eq_nil hone]
      exact .single (.back ..)

theorem shown_parameter {ps : List (Part Fragment)} (h : textAt a Key.type ≠ "") :
    AllShown ps (parameter a ps) := by
  rw [parameter, if_neg h]
  exact (shown_spaced ps).left _

theorem shown_variableDeclarator (ps : List (Part Fragment)) :
    AllShown (ps.take 1) (variableDeclarator a ps) := by
  cases ps with
  | nil => exact .nil
  | cons init ps => exact .single (.back ..)

theorem shown_catchClause (ps : List (Part Fragment)) :
    ShownAnswer (select (Kind.catchClause.selection a) ps) (catchClause ps) := by
  have hparam := ofKind_select_catchClause (a := a) ps
  have hbody := notOfKind_select_catchClause (a := a) ps
  unfold catchClause
  cases hparams : ofKind .parameter ps with
  | nil => exact .error _
  | cons param _ =>
    cases hbodies : notOfKind .parameter ps with
    | nil => exact .error _
    | cons body _ =>
      rw [hparams] at hparam
      rw [hbodies] at hbody
      refine .pure (.of_kind .parameter ?_ ?_)
      · rw [hparam]
        exact .single ((Fragment.Occurs.middle ..).left _)
      · rw [hbody]
        exact .single (.back ..)

theorem shown_switchEntry (ps : List (Part Fragment)) : AllShown ps (switchEntry a ps) := by
  unfold switchEntry
  extract_lets labels body header
  have hlabels : AllShown labels header := by
    unfold header
    split
    · exact .of_isEmpty ‹_›
    · exact ((shown_list ", " labels).right _).left _
  split
  · rename_i hempty
    exact .of_take_drop (a.count Key.labels) hlabels (.of_isEmpty hempty)
  · exact .of_take_drop (a.count Key.labels)
      (hlabels.within ((Fragment.Occurs.refl header).nest_left _))
      ((shown_list "\n" body).within ((Fragment.Occurs.refl _).nest_right header))

/-! ## Section 4: Statements -/

theorem shown_localVariable (ps : List (Part Fragment)) : AllShown ps (localVariable a ps) :=
  .of_annotations ((((shown_spaced _).left _).left _).left _) (((shown_list _ _).right _).left _)

/-- With or without braces, the condition and the branches are shown. -/
theorem shown_conditional (condition thenPart : Part Fragment) (elsePart : Option (Part Fragment)) :
    AllShown (condition :: thenPart :: elsePart.toList)
      (conditional condition thenPart elsePart) := by
  cases elsePart with
  | none => exact shown_controlled _ _ condition thenPart
  | some elsePart =>
    have hbranch : AllShown [condition, thenPart]
        (if !thenPart.kind.isBlock && thenPart.endsInOpenIf then
          conditional.header condition ++ (" " : Fragment) ++ braced thenPart.body
        else controlled (conditional.header condition) thenPart) := by
      split
      · exact .pair (((Fragment.Occurs.middle ..).left _).left _) ((occurs_braced _).right _)
      · exact shown_controlled _ _ condition thenPart
    rw [conditional]
    generalize (if !thenPart.kind.isBlock && thenPart.endsInOpenIf then
      conditional.header condition ++ (" " : Fragment) ++ braced thenPart.body
      else controlled (conditional.header condition) thenPart) = branch at hbranch
    show AllShown ([condition, thenPart] ++ [elsePart]) _
    split
    · exact .append (((hbranch.left _).left _).left _) (.single (.back ..))
    · exact .append ((hbranch.left _).within (occurs_controlled_header _ _))
        (.single (occurs_controlled_body _ _))

/-- The children of a `for` up to its body are its initializers, its
    condition, its updates and the body. -/
theorem shown_forLoop (ps : List (Part Fragment)) :
    ShownAnswer (select (StatementKind.for.selection a) ps) (forLoop a ps) := by
  unfold forLoop
  extract_lets init condition bodyIndex head inits test updates
  show ShownAnswer (ps.take (bodyIndex + 1)) _
  rcases required_cases (.statement .for) ps bodyIndex "body" with
    ⟨body, hget, hbody⟩ | ⟨-, herror⟩
  · rw [hbody, pure_bind, List.take_add_one, hget]
    -- The counts in the attributes cut what precedes the body into three lists.
    have hinits : AllShown (head.take init) inits := shown_trimmed ", " _
    have htest : AllShown ((head.drop init).take condition) test := shown_list "" _
    have hupdates : AllShown (head.drop (init + condition)) updates := shown_list ", " _
    refine .pure (.append (AllShown.within ?_ (occurs_controlled_header _ _))
      (.single (occurs_controlled_body _ _)))
    refine .of_take_drop init ((((((hinits.right _).left _).left _).left _).left _).left _) ?_
    refine .of_take_drop condition ((((htest.right _).left _).left _).left _) ?_
    rw [List.drop_drop]
    exact (hupdates.right _).left _
  · rw [herror]
    exact .error _

/-- The catch clauses are put behind the block one after the other. -/
theorem shown_catches (f : Fragment) (cs : List (Part Fragment)) :
    f.Occurs (cs.foldl (fun f c => f ++ (" " : Fragment) ++ c.body) f) ∧
      AllShown cs (cs.foldl (fun f c => f ++ (" " : Fragment) ++ c.body) f) := by
  induction cs generalizing f with
  | nil => exact ⟨.refl f, .nil⟩
  | cons c cs ih =>
    obtain ⟨hfront, hrest⟩ := ih (f ++ (" " : Fragment) ++ c.body)
    have hf : f.Occurs (f ++ (" " : Fragment) ++ c.body) :=
      (Fragment.Occurs.front ..).left _
    have hc : c.body.Occurs (f ++ (" " : Fragment) ++ c.body) := .back ..
    exact ⟨hf.trans hfront, .cons (hc.trans hfront) hrest⟩

theorem shown_tryCatch (ps : List (Part Fragment)) : ShownAnswer ps (tryCatch a ps) := by
  unfold tryCatch
  extract_lets resources opened tail catches
  rcases required_cases (.statement .tryCatch) ps resources "try block" with
    ⟨block, hget, hblock⟩ | ⟨-, herror⟩
  · rw [hblock, pure_bind]
    have hopened : AllShown (ps.take resources) opened := by
      unfold opened
      split
      · rename_i hnone
        rw [hnone]
        exact .nil
      · exact ((shown_trimmed "; " _).right _).left _
    have hstart : AllShown (ps.take (resources + 1)) (opened ++ block.body) := by
      rw [List.take_add_one, hget]
      exact .append (hopened.left _) (.single (.back ..))
    -- What stands in front of the first clause stays there when the clauses follow.
    obtain ⟨hfront, hcatches⟩ := shown_catches (opened ++ block.body) catches
    have hbegin := hstart.within hfront
    have htail : ps.drop (resources + 1) = tail := rfl
    have hcaught : catches = if a.flag Key.hasFinally then tail.dropLast else tail := rfl
    clear_value opened tail catches
    cases hfinally : a.flag Key.hasFinally with
    | false =>
      obtain rfl : catches = tail := by simpa [hfinally] using hcaught
      refine .pure (.of_take_drop (resources + 1) hbegin ?_)
      rwa [htail]
    | true =>
      rcases List.eq_nil_or_concat tail with rfl | ⟨before, last, rfl⟩
      · refine .pure (.of_take_drop (resources + 1) hbegin ?_)
        rw [htail]
        exact .nil
      · obtain rfl : catches = before := by simpa [hfinally] using hcaught
        rw [List.concat_eq_append] at htail ⊢
        rw [if_pos rfl, List.getLast?_concat]
        refine .pure (.of_take_drop (resources + 1) ((hbegin.left _).left _) ?_)
        rw [htail]
        exact .append ((hcatches.left _).left _) (.single (.back ..))
  · rw [herror]
    exact .error _

theorem shown_statement (kind : StatementKind) (ps : List (Part Fragment)) :
    ShownAnswer (select (kind.selection a) ps) (statement kind a ps) := by
  cases kind with
  | block => exact .pure ((shown_list "\n" ps).within (occurs_braced _))
  | localVariable => exact .pure (shown_localVariable ps)
  | «for» => exact shown_forLoop ps
  | tryCatch => exact shown_tryCatch ps
  | empty | «break» | «continue» => exact .none _
  | expression =>
    cases ps with
    | nil => exact .error _
    | cons e _ => exact .pure (.single (.front ..))
  | conditional =>
    match ps with
    | [] | [_] => exact .error _
    | [condition, thenPart] => exact .pure (shown_conditional condition thenPart none)
    | condition :: thenPart :: elsePart :: _ =>
      exact .pure (shown_conditional condition thenPart (some elsePart))
  | forEach =>
    match ps with
    | [] | [_] => exact .error _
    | iterable :: body :: _ => exact .pure (shown_controlled _ _ iterable body)
  | «while» =>
    match ps with
    | [] | [_] => exact .error _
    | condition :: body :: _ => exact .pure (shown_controlled _ _ condition body)
  | doWhile =>
    match ps with
    | [] | [_] => exact .error _
    | body :: condition :: _ =>
      exact .pure (.pair ((((occurs_controlled_body _ _).left _).left _).left _)
        (.middle ..))
  | «switch» =>
    cases ps with
    | nil => exact .error _
    | cons selector entries =>
      exact .pure (.cons ((Fragment.Occurs.middle ..).left _)
        (((shown_list "\n" entries).within (occurs_braced _)).right _))
  | throw =>
    cases ps with
    | nil => exact .error _
    | cons e _ => exact .pure (.single (.middle ..))
  | «return» =>
    cases ps with
    | nil => exact .none _
    | cons value _ => exact .pure (.single (.middle ..))
  | assert =>
    match ps with
    | [] => exact .error _
    | [check] => exact .pure (.single (.middle ..))
    | check :: message :: _ =>
      exact .pure (.pair ((((Fragment.Occurs.middle ..).left _).left _))
        (.middle ..))
  | synchronized =>
    match ps with
    | [] | [_] => exact .error _
    | lock :: body :: _ => exact .pure (shown_controlled _ _ lock body)
  | labeled =>
    cases ps with
    | nil => exact .error _
    | cons body _ => exact .pure (.single (.back ..))
  | localClass =>
    cases ps with
    | nil => exact .error _
    | cons declaration _ => exact .pure (.single (.refl _))
  | constructorCall => exact .pure (((shown_list ", " ps).right _).left _)

/-! ## Section 5: Expressions -/

theorem shown_arrayCreation (ps : List (Part Fragment)) :
    ShownAnswer (select ExpressionKind.arrayCreation.selection ps) (arrayCreation a ps) := by
  unfold arrayCreation
  extract_lets sizes
  cases Text.repeated (a.count Key.extraDims) "[]" with
  | error e => exact .error _
  | ok groups =>
  rw [lift_ok_bind]
  extract_lets sized
  have hsizes : AllShown (notOfKind (.expression .arrayInitializer) ps) sized := by
    intro p hp
    have hsize : p.body.Occurs (("[" : Fragment) ++ p.body ++ ("]" : Fragment)) :=
      .middle ..
    have hmem : ("[" : Fragment) ++ p.body ++ ("]" : Fragment) ∈ sizes :=
      List.mem_map.2 ⟨p, hp, rfl⟩
    exact ((hsize.trans (.join "" hmem)).right _).left _
  have hall : ∀ f : Fragment, sized.Occurs f →
      AllShown (ofKind (.expression .arrayInitializer) ps).getLast?.toList f →
      AllShown (select ExpressionKind.arrayCreation.selection ps) f := by
    intro f hf hinit
    apply AllShown.of_kind (.expression .arrayInitializer)
    · rwa [ofKind_select_arrayCreation]
    · rw [notOfKind_select_arrayCreation]
      exact hsizes.within hf
  split
  · rename_i init hinit
    refine .pure (hall _ ((Fragment.Occurs.front ..).left _) ?_)
    rw [hinit]
    exact .single (.back ..)
  · rename_i hnone
    refine .pure (hall _ (.refl _) ?_)
    rw [hnone]
    exact .nil

theorem shown_unary (operand : Fragment) : operand.Occurs (unary a operand) := by
  unfold unary
  dsimp only
  split
  · exact .front ..
  · split <;> exact .back ..

theorem shown_lambda (ps : List (Part Fragment)) :
    ShownAnswer (select ExpressionKind.lambda.selection ps) (lambda ps) := by
  unfold lambda
  extract_lets params
  cases hlast : ps.getLast?.toList.filter (·.kind ≠ .parameter) with
  | nil => exact .error _
  | cons body others =>
    have hbody : ps.getLast? = some body ∧ body.kind ≠ .parameter := by
      have hmem : body ∈ ps.getLast?.toList.filter (·.kind ≠ .parameter) := by
        rw [hlast]
        exact List.mem_cons_self
      obtain ⟨hbody, hkind⟩ := List.mem_filter.1 hmem
      exact ⟨Option.mem_toList.1 hbody, of_decide_eq_true hkind⟩
    have hall : ∀ f : Fragment, AllShown params f → body.body.Occurs f →
        AllShown (select ExpressionKind.lambda.selection ps) f := by
      intro f hparams hf
      apply AllShown.of_kind .parameter
      · rwa [ofKind_select_lambda]
      · rw [notOfKind_select_lambda hbody.1 hbody.2]
        exact .single hf
    rw [show required (.expression .lambda) (body :: others) 0 "body" = pure body from rfl,
      pure_bind]
    clear_value params
    split
    · split
      · exact .pure (hall _ (.single ((Fragment.Occurs.front ..).left _))
          (.back ..))
      · exact .pure (hall _ (.single ((Fragment.Occurs.middle ..).left _))
          (.back ..))
    · exact .pure (hall _ ((((shown_list ", " params).right _).left _).left _)
        (.back ..))

theorem shown_expression (kind : ExpressionKind) (ps : List (Part Fragment)) :
    ShownAnswer (select kind.selection ps) (expression kind a ps) := by
  cases kind with
  | name | literal | this | super | classLiteral => exact .none _
  | fieldAccess =>
    cases ps with
    | nil => exact .error _
    | cons scope _ => exact .pure (.single (.front ..))
  | methodCall =>
    unfold expression
    dsimp only
    split
    · cases ps with
      | nil => exact .error _
      | cons scope arguments =>
        exact .pure (.cons (((Fragment.Occurs.front ..).left _).left _)
          (((shown_list ", " arguments).right _).left _))
    · exact .pure (((shown_list ", " ps).right _).left _)
  | objectCreation => exact .pure (((shown_list ", " ps).right _).left _)
  | arrayCreation => exact shown_arrayCreation ps
  | arrayAccess =>
    match ps with
    | [] | [_] => exact .error _
    | array :: index :: _ =>
      exact .pure (.pair (((Fragment.Occurs.front ..).left _).left _)
        (.middle ..))
  | arrayInitializer => exact .pure (((shown_list ", " ps).right _).left _)
  | unary =>
    cases ps with
    | nil => exact .error _
    | cons operand _ => exact .pure (.single (shown_unary operand.body))
  | binary | assign =>
    match ps with
    | [] | [_] => exact .error _
    | left :: right :: _ =>
      exact .pure (.pair ((Fragment.Occurs.front ..).left _)
        (.back ..))
  | conditional =>
    match ps with
    | [] | [_] | [_, _] => exact .error _
    | condition :: yes :: no :: _ =>
      exact .pure (.cons ((((Fragment.Occurs.front ..).left _).left _).left _)
        (.pair ((Fragment.Occurs.middle ..).left _)
          (.back ..)))
  | cast =>
    cases ps with
    | nil => exact .error _
    | cons operand _ => exact .pure (.single (.back ..))
  | instanceOf | methodReference =>
    cases ps with
    | nil => exact .error _
    | cons operand _ => exact .pure (.single (.front ..))
  | enclosed =>
    cases ps with
    | nil => exact .error _
    | cons inner _ => exact .pure (.single (.middle ..))
  | lambda => exact shown_lambda ps
  | annotationUse =>
    cases ps with
    | nil => exact .none _
    | cons value values => exact .pure (((shown_list ", " (value :: values)).right _).left _)

/-- Every selected part occurs in what a template makes of the parts. -/
theorem shown_node (kind : Kind) (a : Attributes) (ps : List (Part Fragment)) :
    ShownAnswer (select (kind.selection a) ps) (node kind a ps) := by
  cases kind with
  | compilationUnit => exact .pure (shown_items ps)
  | packageDecl => exact .pure ((shown_ownLines ps).left _)
  | importDecl => exact .none _
  | type k => exact .pure (shown_typeDecl k ps)
  | member k => exact shown_member k ps
  | parameter =>
    by_cases htype : textAt a Key.type = ""
    · rw [Kind.selection, if_pos htype]
      exact .none _
    · rw [Kind.selection, if_neg htype]
      exact .pure (shown_parameter htype)
  | variableDeclarator => exact .pure (shown_variableDeclarator ps)
  | typeParameter => exact .pure ((shown_spaced ps).left _)
  | catchClause => exact shown_catchClause ps
  | switchEntry => exact .pure (shown_switchEntry ps)
  | statement k => exact shown_statement k ps
  | expression k => exact shown_expression k ps
  | comment k => exact .none _

end Template

/-! ## Section 6: Main statement -/

namespace Cursor

/-- The children that the template of the node selects. -/
def shownChildren (n : Cursor) : List Cursor :=
  (n.kind.selection n.attributes).select Cursor.kind n.children

theorem shownChildren_sublist (n : Cursor) : n.shownChildren.Sublist n.children :=
  Selection.select_sublist ..

theorem select_map_part (n : Cursor) :
    Template.select (n.kind.selection n.attributes) (n.children.map part) =
      n.shownChildren.map part :=
  Selection.select_map ..

/-- A node shows itself and what its selected children show. -/
def Shows (n m : Cursor) : Prop := Relation.ReflTransGen (fun a b => b ∈ a.shownChildren) n m

theorem Shows.contains {n m : Cursor} (h : n.Shows m) : n.Contains m :=
  Relation.ReflTransGen.mono (fun a _ hb => (shownChildren_sublist a).subset hb) _ _ h

end Cursor

namespace Printer

/-- One step: a selected child occurs in its parent. -/
theorem occurs_of_mem_shownChildren {n c : Cursor} {f g : Fragment} (hf : fragment n = .ok f)
    (hc : c ∈ n.shownChildren) (hg : fragment c = .ok g) : g.Occurs f := by
  obtain ⟨-, hnode⟩ := node_of_fragment_eq_ok hf
  have hshown := Template.shown_node n.kind n.attributes (n.children.map Cursor.part) f hnode
  rw [Cursor.select_map_part] at hshown
  have hpart := hshown c.part (List.mem_map_of_mem hc)
  rwa [Cursor.part, sourceText_eq hg] at hpart

/-- All steps: whatever a node shows occurs in its text. -/
theorem occurs_of_shows {n m : Cursor} {f g : Fragment} (hf : fragment n = .ok f)
    (h : n.Shows m) (hg : fragment m = .ok g) : g.Occurs f := by
  induction h generalizing g with
  | refl =>
    obtain rfl := Except.ok.inj (hf.symm.trans hg)
    exact .refl f
  | @tail p c hp hc ih =>
    -- The text of the last node but one occurs already, for any text it may have.
    obtain ⟨k, hk⟩ := (Cursor.Shows.contains hp).exists_fragment hf
    exact (occurs_of_mem_shownChildren hk hc hg).trans (ih hk)

/-- The printed code reflects every node that the templates select, and only
    these.

    In a tree that is printed, every node has a text.  The text of every node
    that another one shows, through any number of levels, occurs in the text
    of that one in one piece, white space and semicolons aside.  The text of a
    node is made from its selected children alone. -/
theorem selected_children_occur {r n : Cursor} {layout : Layout} {out : String}
    (hprint : print layout r = .ok out) (hn : r.Contains n) :
    ∃ f, fragment n = .ok f ∧
      (∀ m, n.Shows m → ∃ g, fragment m = .ok g ∧ g.Occurs f) ∧
      n.shownChildren.Sublist n.children ∧
      Template.node n.kind n.attributes (n.shownChildren.map Cursor.part) = .ok f := by
  obtain ⟨root, hroot, -⟩ := of_print_eq_ok hprint
  obtain ⟨f, hf⟩ := hn.exists_fragment hroot
  refine ⟨f, hf, ?_, n.shownChildren_sublist, ?_⟩
  · intro m hm
    obtain ⟨g, hg⟩ := hm.contains.exists_fragment hf
    exact ⟨g, hg, occurs_of_shows hf hm hg⟩
  · obtain ⟨-, hnode⟩ := node_of_fragment_eq_ok hf
    rwa [← Cursor.select_map_part, Template.node_select]

end Printer

/-! ## Section 7: An annotation that is lost -/

/-- An annotated import and an annotated package. -/
def Builder.annotatedImport : Builder :=
  let name (s : String) : Attributes := Attributes.empty.insert Key.name (.text s)
  (((new.add 0 .packageDecl (name "p")).add 1 (.expression .annotationUse) (name "X")).add 0
    .importDecl (name "a.B")).add 3 (.expression .annotationUse) (name "X")

/-- The tree of `Builder.annotatedImport`. -/
def Tree.annotatedImport : Tree :=
  ⟨Builder.annotatedImport.arena, Builder.annotatedImport.ordered, by decide⟩

theorem Tree.built_annotatedImport : annotatedImport.Built := by
  have hreach : Builder.annotatedImport.Reachable := by
    iterate 4 refine Builder.Reachable.add ?_ (by decide) _ _
    exact .start _ _
  exact ⟨Builder.annotatedImport, hreach, Builder.finish_eq_ok_iff.2 ⟨by decide, rfl⟩⟩

/-- A node of `Tree.annotatedImport`. -/
def Cursor.annotatedImport (i : Fin 5) : Cursor :=
  ⟨Tree.annotatedImport, i, Nat.lt_of_lt_of_eq i.isLt rfl⟩

namespace Printer

theorem fragment_annotatedImport :
    fragment (.annotatedImport 0) = .ok ⟨"@X", [⟨0, "package p;"⟩, ⟨0, ""⟩, ⟨0, "import a.B;"⟩]⟩ ∧
    fragment (.annotatedImport 2) = .ok ⟨"@X", []⟩ ∧
    fragment (.annotatedImport 3) = .ok ⟨"import a.B;", []⟩ ∧
    fragment (.annotatedImport 4) = .ok ⟨"@X", []⟩ := by
  have hunit : (Cursor.annotatedImport 0).children = [.annotatedImport 1, .annotatedImport 3] := rfl
  have hpackage : (Cursor.annotatedImport 1).children = [.annotatedImport 2] := rfl
  have himport : (Cursor.annotatedImport 3).children = [.annotatedImport 4] := rfl
  have hleaf : ∀ i ∈ [2, 4], (Cursor.annotatedImport i).children = [] := by decide
  simp only [fragment]
  rw [Cursor.toDocument_of_children hunit]
  simp only [List.map]
  rw [Cursor.toDocument_of_children hpackage, Cursor.toDocument_of_children himport]
  simp only [List.map]
  rw [Cursor.toDocument_of_children (hleaf 2 (by decide)),
    Cursor.toDocument_of_children (hleaf 4 (by decide))]
  exact ⟨rfl, rfl, rfl, rfl⟩

theorem print_annotatedImport :
    print {} Tree.annotatedImport.root = .ok "@X\npackage p;\n\nimport a.B;\n" := by
  show print {} (Cursor.annotatedImport 0) = _
  rw [print_eq_write (by decide), fragment_annotatedImport.1]
  rfl

/-- The package shows its annotation. -/
theorem selected_children_occur_annotatedImport :
    Tree.annotatedImport.Built ∧
      print {} Tree.annotatedImport.root = .ok "@X\npackage p;\n\nimport a.B;\n" ∧
      ∃ f, fragment Tree.annotatedImport.root = .ok f ∧
        ∃ g, fragment (.annotatedImport 2) = .ok g ∧ g.Occurs f := by
  obtain ⟨f, hf, hshown, -, -⟩ := selected_children_occur print_annotatedImport .refl
  have hshows : (Tree.annotatedImport.root).Shows (.annotatedImport 2) := by
    have hunit : Cursor.annotatedImport 1 ∈ (Cursor.annotatedImport 0).shownChildren :=
      List.mem_cons_self
    have hpackage : Cursor.annotatedImport 2 ∈ (Cursor.annotatedImport 1).shownChildren :=
      List.mem_cons_self
    exact .head hunit (.single hpackage)
  exact ⟨Tree.built_annotatedImport, print_annotatedImport, f, hf, hshown _ hshows⟩

/-- The import, a sibling of the package, accepts the same annotation and
    loses it. -/
theorem import_loses_annotation :
    Tree.annotatedImport.Built ∧
      print {} Tree.annotatedImport.root = .ok "@X\npackage p;\n\nimport a.B;\n" ∧
      Cursor.annotatedImport 4 ∈ (Cursor.annotatedImport 3).children ∧
      ∃ f g, fragment (.annotatedImport 3) = .ok f ∧ fragment (.annotatedImport 4) = .ok g ∧
        ¬g.Occurs f := by
  obtain ⟨-, -, himport, huse⟩ := fragment_annotatedImport
  exact ⟨Tree.built_annotatedImport, print_annotatedImport, List.mem_cons_self, _, _, himport,
    huse, by decide +kernel⟩

end Printer

end JavaTree
