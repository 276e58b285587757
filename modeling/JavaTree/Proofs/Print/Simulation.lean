import JavaTree.Proofs.Print.Indentation
import JavaTree.Proofs.Print.Template

/-! # Rendered texts are fragments

    The printer indents a body as text, once for each body around it.  Here
    its templates are compared to those on fragments, where a line has a level
    and nothing is indented.  A text renders a fragment if it is what the
    fragment is with a width given to the levels (`Renders`).  Each template
    takes texts that render fragments to a text that renders a fragment, and
    fails where the other one fails; slices and positions are never out of
    range (`Template.renders_node`). -/

namespace JavaTree

/-! ## Section 1: Texts and fragments -/

/-- With a width for its levels, the fragment is the text. -/
structure Renders (width : Nat) (s : String) (f : Fragment) : Prop where
  toList_eq : s.toList = f.text width
  tidy : f.Tidy

/-- As `Renders`, but the last line may be empty at any level. -/
structure RendersAbove (width : Nat) (s : String) (f : Fragment) : Prop where
  toList_eq : s.toList = f.text width
  tidy : f.TidyAbove

/-- The answers are one failure, or a text and its fragment. -/
inductive RendersAnswer (width : Nat) :
    Except RenderFailure String → Except RenderFailure Fragment → Prop where
  | ok {s : String} {f : Fragment} (h : Renders width s f) : RendersAnswer width (.ok s) (.ok f)
  | error (e : RenderFailure) : RendersAnswer width (.error e) (.error e)

namespace Renders

variable {width : Nat} {s t : String} {f g : Fragment}

theorem ofText (width : Nat) (s : String) : Renders width s (.ofText s) :=
  ⟨(Fragment.text_ofText width s).symm, Fragment.tidy_ofText s⟩

theorem empty (width : Nat) : Renders width "" .empty := ofText width ""

theorem append (hs : Renders width s f) (ht : Renders width t g) :
    Renders width (s ++ t) (f ++ g) := by
  refine ⟨?_, hs.tidy.append ht.tidy⟩
  rw [String.toList_append, hs.toList_eq, ht.toList_eq, Fragment.text_append]

/-- An indented text below another is a fragment nested below another. -/
theorem nest (hs : Renders width s f) (ht : Renders width t g) :
    Renders width (s ++ "\n" ++ Renderer.indent (Text.copies width " ") t) (f.nest g) := by
  refine ⟨?_, hs.tidy.nest ht.tidy⟩
  rw [String.toList_append, String.toList_append, Renderer.toList_indent, hs.toList_eq,
    ht.toList_eq, Fragment.text_nest width f ht.tidy, List.append_assoc]
  rfl

theorem above (hs : Renders width s f) : RendersAbove width s f := ⟨hs.toList_eq, hs.tidy.above⟩

theorem trimSemicolons (hs : Renders width s f) :
    RendersAbove width (Text.dropSemicolons s) f.trimSemicolons := by
  refine ⟨?_, hs.tidy.trimSemicolons⟩
  rw [Fragment.text_trimSemicolons, ← hs.toList_eq, String.ofList_toList]

theorem ite {p : Prop} [Decidable p] (hs : Renders width s f) (ht : Renders width t g) :
    Renders width (if p then s else t) (if p then f else g) := by
  by_cases h : p
  · simpa only [if_pos h] using hs
  · simpa only [if_neg h] using ht

/-- A text is empty exactly if its fragment is. -/
theorem ite_empty {s' t' : String} {f' g' : Fragment} (hs : Renders width s f)
    (hs' : Renders width s' f') (ht' : Renders width t' g') :
    Renders width (if s = "" then s' else t') (if f.isEmpty then f' else g') := by
  have hempty : s = "" ↔ f.isEmpty := by
    rw [← Fragment.text_eq_nil_iff, ← hs.toList_eq, String.toList_eq_nil_iff]
  by_cases h : f.isEmpty
  · rwa [if_pos (hempty.2 h), if_pos h]
  · rwa [if_neg (mt hempty.1 h), if_neg h]

/-- An operator runs together with a text exactly if it does with its
    fragment; a line break is no sign. -/
theorem mergesWith_eq (hs : Renders width s f) (operator : String) :
    Renderer.mergesWith operator s = Template.mergesWith operator f := by
  rw [Renderer.mergesWith, Template.mergesWith, hs.toList_eq]
  rcases f.head?_text width with hhead | ⟨hbreak, hnone⟩
  · exact hhead ▸ rfl
  · rw [hbreak, hnone]
    cases operator.toList.getLast? with
    | none => rfl
    | some last => simp

end Renders

/-- Behind a trimmed text there is always more text on the line. -/
theorem RendersAbove.append {width : Nat} {s t : String} {f g : Fragment}
    (hs : RendersAbove width s f) (ht : Renders width t g) (hne : g.head ≠ "") :
    Renders width (s ++ t) (f ++ g) := by
  refine ⟨?_, hs.tidy.append ht.tidy hne⟩
  rw [String.toList_append, hs.toList_eq, ht.toList_eq, Fragment.text_append]

theorem Renders.append_above {width : Nat} {s t : String} {f g : Fragment}
    (hs : Renders width s f) (ht : RendersAbove width t g) :
    RendersAbove width (s ++ t) (f ++ g) := by
  refine ⟨?_, hs.tidy.append_above ht.tidy⟩
  rw [String.toList_append, hs.toList_eq, ht.toList_eq, Fragment.text_append]

/-! ## Section 2: Parts -/

/-- A child with its source text, both as text and in lines. -/
structure RenderedPart (width : Nat) where
  /-- Kind of the child. -/
  kind : Kind
  /-- Attributes of the child. -/
  attributes : Attributes
  /-- Whether the child ends in an `if` that would take a following `else`. -/
  endsInOpenIf : Bool
  /-- Source text of the child. -/
  text : String
  /-- The lines of the source text. -/
  fragment : Fragment
  renders : Renders width text fragment

namespace RenderedPart

variable {width : Nat}

/-- The part as text. -/
def asText (p : RenderedPart width) : Part String := ⟨p.kind, p.attributes, p.endsInOpenIf, p.text⟩

/-- The part in lines. -/
def inLines (p : RenderedPart width) : Part Fragment :=
  ⟨p.kind, p.attributes, p.endsInOpenIf, p.fragment⟩

theorem kind_asText (p : RenderedPart width) : p.asText.kind = p.kind := rfl

theorem kind_inLines (p : RenderedPart width) : p.inLines.kind = p.kind := rfl

theorem renders_body (p : RenderedPart width) : Renders width p.asText.body p.inLines.body :=
  p.renders

end RenderedPart

variable {width : Nat}

namespace RendersAnswer

theorem pure {s : String} {f : Fragment} (h : Renders width s f) :
    RendersAnswer width (Pure.pure s) (Pure.pure f) := .ok h

theorem ite {p : Prop} [Decidable p] {r s : Except RenderFailure String}
    {x y : Except RenderFailure Fragment} (hr : RendersAnswer width r x)
    (hs : RendersAnswer width s y) :
    RendersAnswer width (if p then r else s) (if p then x else y) := by
  by_cases h : p
  · simpa only [if_pos h] using hr
  · simpa only [if_neg h] using hs

/-- A required part is missing in both templates, or in neither. -/
theorem required {kind : Kind} {ps : List (RenderedPart width)} {i : Nat} {role : String}
    {next : Part String → Except RenderFailure String}
    {next' : Part Fragment → Except RenderFailure Fragment}
    (h : ∀ p, ps[i]? = some p → RendersAnswer width (next p.asText) (next' p.inLines)) :
    RendersAnswer width (Template.required kind (ps.map (·.asText)) i role >>= next)
      (Template.required kind (ps.map (·.inLines)) i role >>= next') := by
  unfold Template.required
  simp only [List.getElem?_map]
  cases hp : ps[i]? with
  | none => exact .error _
  | some p => exact h p hp

end RendersAnswer

namespace Template

open RenderedPart (kind_asText kind_inLines)

/-! ## Section 3: Texts of several parts -/

variable (a : Attributes) (ps : List (RenderedPart width))

theorem renders_list (sep : String) :
    Renders width (Renderer.list sep (ps.map (·.asText))) (list sep (ps.map (·.inLines))) := by
  unfold Renderer.list list
  induction ps with
  | nil => exact .empty width
  | cons p ps ih =>
    cases ps with
    | nil =>
      show Renders width (sep.intercalate [_]) _
      rw [String.intercalate_singleton]
      exact p.renders
    | cons q ps =>
      show Renders width (sep.intercalate (_ :: _ :: _)) _
      rw [String.intercalate_cons_cons, String.append_assoc]
      exact .append p.renders (.append (.ofText width sep) ih)

theorem renders_joinEnding (ending : String) :
    Renders width (String.join ((ps.map (·.asText)).map (·.body ++ ending)))
      (Fragment.joinEnding ending ((ps.map (·.inLines)).map (·.body))) := by
  induction ps with
  | nil => exact .empty width
  | cons p ps ih =>
    rw [List.map_cons, List.map_cons, String.join_cons, String.append_assoc]
    exact .append p.renders (.append (.ofText width ending) ih)

theorem renders_ownLines :
    Renders width (Renderer.ownLines (ps.map (·.asText))) (ownLines (ps.map (·.inLines))) :=
  renders_joinEnding ps "\n"

theorem renders_spaced :
    Renders width (Renderer.spaced (ps.map (·.asText))) (spaced (ps.map (·.inLines))) :=
  renders_joinEnding ps " "

/-- With separators that have text, only the last of some trimmed texts may
    leave its line empty. -/
theorem renders_trimmedList (sep : String) (hsep : (Fragment.ofText sep).head ≠ "") :
    RendersAbove width (Renderer.trimmedList sep (ps.map (·.asText)))
      (Fragment.join sep ((ps.map (·.inLines)).map (·.body.trimSemicolons))) := by
  unfold Renderer.trimmedList
  induction ps with
  | nil => exact (Renders.empty width).above
  | cons p ps ih =>
    have hp := p.renders.trimSemicolons
    cases ps with
    | nil =>
      show RendersAbove width (sep.intercalate [_]) _
      rw [String.intercalate_singleton]
      exact hp
    | cons q ps =>
      show RendersAbove width (sep.intercalate (_ :: _ :: _)) (_ ++ (_ ++ _))
      rw [String.intercalate_cons_cons, ← Fragment.append_assoc]
      exact Renders.append_above (hp.append (.ofText width sep) hsep) ih

/-- What follows a declaration: a break and the next declaration, and so on. -/
def itemsAfter (prev : Part Fragment) : List (Part Fragment) → Fragment
  | [] => .empty
  | p :: rest =>
    let tight := prev.kind.isComment || (prev.kind = .importDecl && p.kind = .importDecl)
    ((if tight then "\n" else "\n\n" : String) : Fragment) ++ (p.body ++ itemsAfter p rest)

theorem items_eq_itemsAfter (p : Part Fragment) (rest : List (Part Fragment)) :
    items (p :: rest) = p.body ++ itemsAfter p rest := by
  induction rest generalizing p with
  | nil => rw [itemsAfter, Fragment.append_empty, items]
  | cons q rest ih => rw [items, ih q, itemsAfter]

/-- The part before the current one is the last of those that are done. -/
theorem renders_itemsOnto (done : List (Part String)) (prev : RenderedPart width) {out : String}
    {f : Fragment} (hout : Renders width out f) :
    ∃ s, Renderer.itemsOnto (done ++ prev.asText :: ps.map (·.asText)) (done.length + 1) out
        (ps.map (·.asText)) = .ok s ∧
      Renders width s (f ++ itemsAfter prev.inLines (ps.map (·.inLines))) := by
  induction ps generalizing done prev out f with
  | nil =>
    refine ⟨out, rfl, ?_⟩
    rw [List.map_nil, itemsAfter, Fragment.append_empty]
    exact hout
  | cons p ps ih =>
    have hprev : (done ++ prev.asText :: p.asText :: ps.map (·.asText))[done.length]? =
        some prev.asText := by simp
    let tight := prev.kind.isComment || (prev.kind = .importDecl && p.kind = .importDecl)
    have hstep := (hout.append (.ofText width (if tight then "\n" else "\n\n"))).append p.renders
    obtain ⟨s, hs, hrenders⟩ := ih (done ++ [prev.asText]) p hstep
    refine ⟨s, ?_, ?_⟩
    · rw [List.append_assoc, List.length_append] at hs
      rw [List.map_cons, Renderer.itemsOnto, if_neg (by omega), Nat.add_sub_cancel,
        Checked.item_ok hprev]
      exact hs
    · rwa [Fragment.append_assoc, Fragment.append_assoc] at hrenders

theorem renders_items :
    ∃ s, Renderer.items (ps.map (·.asText)) = .ok s ∧
      Renders width s (items (ps.map (·.inLines))) := by
  cases ps with
  | nil => exact ⟨"", rfl, .empty width⟩
  | cons p ps =>
    obtain ⟨s, hs, hrenders⟩ := renders_itemsOnto ps [] p (.append (.empty width) p.renders)
    refine ⟨s, hs, ?_⟩
    rw [List.map_cons, items_eq_itemsAfter]
    rwa [Fragment.empty_append] at hrenders

/-! ## Section 4: Templates for declarations -/

theorem renders_braced {s : String} {f : Fragment} (h : Renders width s f) :
    Renders width (Renderer.braced (Text.copies width " ") s) (braced f) :=
  .ite_empty h (.ofText width _) (.append (.nest (.ofText width "\x7b") h) (.ofText width _))

theorem renders_controlled {s : String} {f : Fragment} (h : Renders width s f)
    (p : RenderedPart width) :
    Renders width (Renderer.controlled (Text.copies width " ") s p.asText)
      (controlled f p.inLines) :=
  .ite (.append (.append h (.ofText width " ")) p.renders) (.nest h p.renders)

theorem renders_typeParameters :
    Renders width (Renderer.typeParameters (ps.map (·.asText)))
      (typeParameters (ps.map (·.inLines))) := by
  unfold Renderer.typeParameters typeParameters
  simp only [List.isEmpty_map]
  exact .ite (.empty width)
    (.append (.append (.ofText width _) (renders_list ps ", ")) (.ofText width _))

theorem renders_typeBody (kind : TypeKind) :
    ∃ s, Renderer.typeBody kind (ps.map (·.asText)) = .ok s ∧
      Renders width s (typeBody kind (ps.map (·.inLines))) := by
  unfold Renderer.typeBody typeBody
  simp only [ofKind_map kind_asText, ofKind_map kind_inLines, notOfKind_map kind_asText,
    notOfKind_map kind_inLines, List.isEmpty_map]
  by_cases hkind : kind = .enum
  · simp only [if_pos hkind]
    have hconstants := renders_list (ps.filter (·.kind = .member .enumConstant)) ", "
    generalize ps.filter (·.kind ≠ .member .enumConstant) = others
    by_cases hnone : others.isEmpty
    · simp only [if_pos hnone]
      exact ⟨_, rfl, hconstants⟩
    · simp only [if_neg hnone]
      obtain ⟨s, hs, hrenders⟩ := renders_items others
      rw [hs]
      exact ⟨_, rfl, .append (.append hconstants (.ofText width _)) hrenders⟩
  · simp only [if_neg hkind]
    exact renders_items ps

theorem renders_typeDecl (kind : TypeKind) :
    RendersAnswer width
      (Renderer.typeDecl (Text.copies width " ") kind a (ps.map (·.asText)))
      (.ok (typeDecl kind a (ps.map (·.inLines)))) := by
  unfold Renderer.typeDecl typeDecl
  simp only [annotationsOf_map kind_asText, annotationsOf_map kind_inLines,
    withoutAnnotations_map kind_asText, withoutAnnotations_map kind_inLines,
    ofKind_map kind_asText, ofKind_map kind_inLines, notOfKind_map kind_asText,
    notOfKind_map kind_inLines]
  obtain ⟨s, hs, hbody⟩ := renders_typeBody
    ((ps.filter (!·.kind.isAnnotationUse)).filter (·.kind ≠ .typeParameter)) kind
  have hheader := (((renders_ownLines (ps.filter (·.kind.isAnnotationUse))).append
    (.ofText width (wordAt a Key.modifiers ++ kind.keyword ++ " " ++ textAt a Key.name))).append
    (renders_typeParameters
      ((ps.filter (!·.kind.isAnnotationUse)).filter (·.kind = .typeParameter)))).append
    (.ofText width (clauseAt a "extends" Key.superTypes ++ clauseAt a "implements" Key.interfaces))
  have hopened := (hheader.append (.ofText width " \x7b\n")).nest hbody
  -- The blank line below the header is made of two breaks.
  have hbrace (header : String) : header ++ " \x7b\n" ++ "\n" = header ++ " \x7b\n\n" :=
    String.append_assoc
  rw [hbrace] at hopened
  have hanswer := RendersAnswer.ok (hbody.ite_empty
    (hheader.append (.ofText width " \x7b\n\x7d")) (hopened.append (.ofText width "\n\x7d")))
  rw [apply_ite Except.ok] at hanswer
  rw [hs]
  exact hanswer

theorem renders_types : Renders width
    (wordAt a Key.modifiers ++ (if (ps.map (·.asText)).isEmpty then ""
      else Renderer.typeParameters (ps.map (·.asText)) ++ " "))
    (callable.ofTextWithTypes a (ps.map (·.inLines))) := by
  unfold callable.ofTextWithTypes
  simp only [List.isEmpty_map]
  cases ps.isEmpty with
  | true =>
    rw [if_pos rfl, if_pos rfl, String.append_empty]
    exact .ofText width _
  | false =>
    rw [if_neg Bool.false_ne_true, if_neg Bool.false_ne_true, ← String.append_assoc]
    exact .append (.append (.ofText width _) (renders_typeParameters ps)) (.ofText width " ")

theorem renders_callable (isMethod : Bool) :
    Renders width (Renderer.callable isMethod a (ps.map (·.asText)))
      (callable isMethod a (ps.map (·.inLines))) := by
  unfold Renderer.callable callable
  simp only [ofKind_map kind_asText, ofKind_map kind_inLines, notOfKind_map kind_asText,
    notOfKind_map kind_inLines]
  have htypes := renders_types a (ps.filter (·.kind = .typeParameter))
  generalize ps.filter (·.kind ≠ .typeParameter) = rest
  cases rest.filter (·.kind ≠ .parameter) with
  | nil => apply_rules [Renders.append, Renders.ofText, renders_list]
  | cons p rest =>
    apply_rules [Renders.append, Renders.ofText, renders_list, RenderedPart.renders_body]

theorem renders_packageDecl :
    Renders width (Renderer.packageDecl a (ps.map (·.asText)))
      (packageDecl a (ps.map (·.inLines))) :=
  .append (renders_ownLines ps) (.ofText width _)

theorem renders_parameter :
    Renders width (Renderer.parameter a (ps.map (·.asText)))
      (parameter a (ps.map (·.inLines))) :=
  .ite (.ofText width _) (.append (renders_spaced ps) (.ofText width _))

theorem renders_variableDeclarator :
    Renders width (Renderer.variableDeclarator a (ps.map (·.asText)))
      (variableDeclarator a (ps.map (·.inLines))) := by
  cases ps with
  | nil => exact .ofText width _
  | cons p ps => exact .append (.ofText width _) p.renders

theorem renders_typeParameter :
    Renders width (Renderer.typeParameter a (ps.map (·.asText)))
      (typeParameter a (ps.map (·.inLines))) :=
  .append (renders_spaced ps) (.ofText width _)

theorem renders_member (kind : MemberKind) :
    RendersAnswer width (Renderer.member kind a (ps.map (·.asText)))
      (member kind a (ps.map (·.inLines))) := by
  unfold Renderer.member member
  simp only [List.filter_map, Function.comp_def, kind_asText, kind_inLines,
    annotationsOf_map kind_asText, annotationsOf_map kind_inLines,
    withoutAnnotations_map kind_asText, withoutAnnotations_map kind_inLines]
  have hcomments := renders_ownLines (ps.filter (·.kind.isComment))
  generalize ps.filter (!·.kind.isComment) = others
  have hannotations := renders_ownLines (others.filter (·.kind.isAnnotationUse))
  have hfront := hcomments.append hannotations
  cases kind with
  | method => exact .pure (.append hfront (renders_callable ..))
  | constructor => exact .pure (.append hfront (renders_callable ..))
  | field =>
    exact .pure (.append (.append (.append hfront (.ofText width _)) (renders_list _ _))
      (.ofText width _))
  | enumConstant =>
    have hnamed :=
      (hcomments.append (renders_spaced (others.filter (·.kind.isAnnotationUse)))).append
        (.ofText width (textAt a Key.name))
    simp only [List.isEmpty_map]
    exact .ite (.pure hnamed) (.pure (.append (.append (.append hnamed (.ofText width _))
      (renders_list _ _)) (.ofText width _)))
  | annotationMember =>
    dsimp only
    cases others.filter (!·.kind.isAnnotationUse) with
    | nil => exact .pure (.append (.append hfront (.ofText width _)) (.ofText width _))
    | cons p rest =>
      exact .pure (.append (.append (.append (.append hfront (.ofText width _)) (.ofText width _))
        p.renders) (.ofText width _))
  | initializer =>
    exact .required fun p _ => .pure (.append (.append hcomments (.ofText width _)) p.renders)

theorem renders_catchClause :
    RendersAnswer width (Renderer.catchClause (ps.map (·.asText)))
      (catchClause (ps.map (·.inLines))) := by
  unfold Renderer.catchClause catchClause
  simp only [ofKind_map kind_asText, ofKind_map kind_inLines, notOfKind_map kind_asText,
    notOfKind_map kind_inLines]
  exact .required fun p _ => .required fun q _ =>
    .pure (.append (.append (.append (.ofText width _) p.renders) (.ofText width _)) q.renders)

theorem renders_switchEntry :
    RendersAnswer width (Renderer.switchEntry (Text.copies width " ") a (ps.map (·.asText)))
      (.ok (switchEntry a (ps.map (·.inLines)))) := by
  -- Cutting the number of labels to that of the children changes no slice.
  have htake : ps.take (a.count Key.labels) = ps.take (min (a.count Key.labels) ps.length) := by
    rw [← List.take_take, List.take_length]
  have hdrop : ps.drop (a.count Key.labels) = ps.drop (min (a.count Key.labels) ps.length) := by
    rcases Nat.le_total (a.count Key.labels) ps.length with h | h
    · rw [Nat.min_eq_left h]
    · rw [Nat.min_eq_right h, List.drop_eq_nil_of_le h, List.drop_length]
  have hle := Nat.min_le_right (a.count Key.labels) ps.length
  unfold Renderer.switchEntry switchEntry
  dsimp only
  rw [← List.map_take, ← List.map_drop, htake, hdrop, List.length_map]
  generalize min (a.count Key.labels) ps.length = count at hle
  have hlength : count ≤ (ps.map (·.asText)).length := by rwa [List.length_map]
  have hempty : (ps.take count).isEmpty = true ↔ count = 0 := by
    rw [List.isEmpty_iff_length_eq_zero, List.length_take, Nat.min_eq_left hle]
  rw [Checked.front_ok hlength, lift_ok_bind, Checked.back_ok hlength, lift_ok_bind,
    ← List.map_take, ← List.map_drop]
  simp only [List.isEmpty_map, hempty]
  have hheader : Renders width
      (if count = 0 then "default:"
        else "case " ++ Renderer.list ", " ((ps.take count).map (·.asText)) ++ ":")
      (if count = 0 then Fragment.ofText "default:"
        else ("case " : Fragment) ++ list ", " ((ps.take count).map (·.inLines))
          ++ (":" : Fragment)) :=
    .ite (.ofText width _)
      (.append (.append (.ofText width _) (renders_list _ _)) (.ofText width _))
  exact .ok (.ite hheader (.nest hheader (renders_list (ps.drop count) "\n")))

/-! ## Section 5: Templates for statements -/

theorem renders_localVariable :
    Renders width (Renderer.localVariable a (ps.map (·.asText)))
      (localVariable a (ps.map (·.inLines))) := by
  unfold Renderer.localVariable localVariable
  simp only [annotationsOf_map kind_asText, annotationsOf_map kind_inLines,
    withoutAnnotations_map kind_asText, withoutAnnotations_map kind_inLines]
  exact .append (.append (.append (renders_spaced _) (.ofText width _)) (renders_list _ _))
    (.ofText width _)

theorem renders_conditional (p q : RenderedPart width) (r : Option (RenderedPart width)) :
    Renders width
      (Renderer.conditional (Text.copies width " ") p.asText q.asText (r.map (·.asText)))
      (conditional p.inLines q.inLines (r.map (·.inLines))) := by
  have hheader : Renders width (Renderer.conditional.header p.asText)
      (conditional.header p.inLines) :=
    .append (.append (.ofText width _) p.renders) (.ofText width _)
  cases r with
  | none => exact renders_controlled hheader q
  | some e =>
    -- The braces and the place of `else` depend on the then-branch's kind and end.
    let wrap := !q.kind.isBlock && q.endsInOpenIf
    have hthen : Renders width
        (if wrap then Renderer.conditional.header p.asText ++ " "
          ++ Renderer.braced (Text.copies width " ") q.text
          else Renderer.controlled (Text.copies width " ")
            (Renderer.conditional.header p.asText) q.asText)
        (if wrap then conditional.header p.inLines ++ (" " : Fragment) ++ braced q.fragment
          else controlled (conditional.header p.inLines) q.inLines) :=
      .ite (.append (.append hheader (.ofText width " ")) (renders_braced q.renders))
        (renders_controlled hheader q)
    have hupper := hthen.append
      (.ofText width (if q.kind.isBlock || wrap then " else" else "\nelse"))
    exact Renders.ite (p := e.kind = .statement .conditional)
      (.append (.append hupper (.ofText width " ")) e.renders) (renders_controlled hupper e)

/-- What the initializers, the condition and the updates count fits into 64
    bits, and the head has room for all of them. -/
theorem renders_forLoop :
    RendersAnswer width (Renderer.forLoop (Text.copies width " ") a (ps.map (·.asText)))
      (forLoop a (ps.map (·.inLines))) := by
  unfold Renderer.forLoop forLoop
  dsimp only
  generalize hc : (if a.flag Key.condition then 1 else 0) = condition
  have hcondition : condition = 0 ∨ condition = 1 := by
    rw [← hc]
    split
    · exact .inr rfl
    · exact .inl rfl
  have hsum := a.count_add_count_lt Key.init Key.update (n := condition) (by omega)
  rw [Checked.add_ok (Nat.lt_of_le_of_lt (Nat.le_add_right _ _) hsum), lift_ok_bind,
    Checked.add_ok hsum, lift_ok_bind]
  generalize a.count Key.init = init, a.count Key.update = update
  refine .required fun body hbody => ?_
  have hlt := (List.getElem?_eq_some_iff.1 hbody).1
  -- The body lies behind the head, so every slice of the head is in range.
  have hhead : Renderer.head (.statement .for) (ps.map (·.asText)) (init + condition + update) =
      pure ((ps.take (init + condition + update)).map (·.asText)) := by
    rw [Renderer.head, List.length_map, if_pos (Nat.le_of_lt hlt), List.map_take]
    rfl
  have hlength : (ps.take (init + condition + update)).length = init + condition + update := by
    rw [List.length_take]
    omega
  rw [hhead, pure_bind, ← List.map_take]
  generalize ps.take (init + condition + update) = head at hlength
  have hfront : init ≤ (head.map (·.asText)).length := by rw [List.length_map]; omega
  have hback : init + condition ≤ (head.map (·.asText)).length := by rw [List.length_map]; omega
  have hinits := (Renders.ofText width "for (").append_above
    (renders_trimmedList (head.take init) ", " (by decide))
  have hloop {test : String} {f : Fragment} (htest : Renders width test f) :=
    renders_controlled ((((hinits.append (.ofText width "; ") (by decide)).append htest).append
      (.ofText width "; ")).append (renders_list (head.drop (init + condition)) ", ") |>.append
      (.ofText width ")")) body
  rw [Checked.front_ok hfront, lift_ok_bind, ← List.map_take, ← List.map_take, ← List.map_drop,
    ← List.map_drop, ← List.map_take]
  rcases hcondition with rfl | rfl
  · rw [if_neg (by decide), pure_bind, lift_ok_bind, Checked.back_ok hback, lift_ok_bind,
      ← List.map_drop]
    exact .pure (hloop (.empty width))
  · have hget : init < head.length := by omega
    have hitem : (head.map (·.asText))[init]? = some head[init].asText := by
      rw [List.getElem?_map, List.getElem?_eq_getElem hget, Option.map_some]
    rw [if_pos rfl, Checked.item_ok hitem, lift_ok_bind, pure_bind, lift_ok_bind,
      Checked.back_ok hback, lift_ok_bind, ← List.map_drop, List.drop_eq_getElem_cons hget]
    exact .pure (hloop head[init].renders)

theorem renders_tryHead {resources : Nat} (h : resources ≤ ps.length) :
    ∃ s, Renderer.tryHead resources (ps.map (·.asText)) = pure s ∧
      Renders width s (if resources = 0 then ("try " : Fragment) else ("try (" : Fragment)
        ++ Fragment.join "; " (((ps.take resources).map (·.inLines)).map (·.body.trimSemicolons))
        ++ (") " : Fragment)) := by
  unfold Renderer.tryHead
  by_cases hnone : resources = 0
  · rw [if_pos hnone, if_pos hnone]
    exact ⟨_, rfl, .ofText width "try "⟩
  · have hopened := (Renders.ofText width "try (").append_above
      (renders_trimmedList (ps.take resources) "; " (by decide))
    rw [if_neg hnone, if_neg hnone, Checked.front_ok (by rwa [List.length_map]), lift_ok_bind,
      ← List.map_take]
    exact ⟨_, rfl, hopened.append (.ofText width ") ") (by decide)⟩

theorem renders_foldl {s : String} {f : Fragment} (h : Renders width s f) :
    Renders width ((ps.map (·.asText)).foldl (fun out c => out ++ " " ++ c.body) s)
      ((ps.map (·.inLines)).foldl (fun f c => f ++ (" " : Fragment) ++ c.body) f) := by
  induction ps generalizing s f with
  | nil => exact h
  | cons p ps ih => exact ih ((h.append (.ofText width " ")).append p.renders)

theorem renders_tryCatch :
    RendersAnswer width (Renderer.tryCatch a (ps.map (·.asText)))
      (tryCatch a (ps.map (·.inLines))) := by
  have hsum := a.count_add_count_lt Key.resources Key.resources (Nat.le_refl 1)
  unfold Renderer.tryCatch tryCatch
  dsimp only
  generalize a.count Key.resources = resources at hsum
  refine .required fun block hblock => ?_
  have hlt := (List.getElem?_eq_some_iff.1 hblock).1
  -- The block lies behind the resources, so a slice begins right behind it.
  have hback : resources + 1 ≤ (ps.map (·.asText)).length := by rwa [List.length_map]
  have hadd := Checked.add_ok (Nat.lt_of_le_of_lt (Nat.le_add_right _ _) hsum)
  obtain ⟨opened, hhead, hopened⟩ := renders_tryHead ps (Nat.le_of_lt hlt)
  have hblock := hopened.append block.renders
  rw [hhead, pure_bind, hadd, lift_ok_bind, Checked.back_ok hback, lift_ok_bind]
  simp only [← List.map_take, ← List.map_drop, ← List.map_dropLast, List.getLast?_map]
  generalize ps.drop (resources + 1) = tail
  cases a.flag Key.hasFinally with
  | false => exact .pure (renders_foldl tail hblock)
  | true =>
    cases tail.getLast? with
    | none => exact .pure (renders_foldl tail.dropLast hblock)
    | some last =>
      exact .pure (.append (.append (renders_foldl tail.dropLast hblock) (.ofText width _))
        last.renders)

theorem renders_switch :
    RendersAnswer width (Renderer.switch (Text.copies width " ") (ps.map (·.asText)))
      (statement .switch a (ps.map (·.inLines))) := by
  refine .required fun p hp => ?_
  have hlt := (List.getElem?_eq_some_iff.1 hp).1
  rw [Checked.back_ok (by rwa [List.length_map]), lift_ok_bind, ← List.map_drop, ← List.map_drop]
  exact .pure (.append (.append (.append (.ofText width _) p.renders) (.ofText width _))
    (renders_braced (renders_list _ "\n")))

theorem renders_jump (word : String) : Renders width (Renderer.jump word a) (jump word a) := by
  unfold Renderer.jump jump
  cases a.nonempty? Key.label <;> exact .ofText width _

theorem renders_statement (kind : StatementKind) :
    RendersAnswer width (Renderer.statement (Text.copies width " ") kind a (ps.map (·.asText)))
      (statement kind a (ps.map (·.inLines))) := by
  cases kind with
  | block => exact .pure (renders_braced (renders_list ..))
  | expression => exact .required fun p _ => .pure (.append p.renders (.ofText width _))
  | localVariable => exact .pure (renders_localVariable ..)
  | conditional =>
    refine .required fun p _ => .required fun q _ => .pure ?_
    rw [List.getElem?_map, List.getElem?_map]
    exact renders_conditional p q _
  | «for» => exact renders_forLoop ..
  | forEach =>
    exact .required fun p _ => .required fun q _ => .pure (renders_controlled
      (.append (.append (.ofText width _) p.renders) (.ofText width _)) q)
  | «while» | synchronized =>
    exact .required fun p _ => .required fun q _ => .pure (renders_controlled
      (.append (.append (.ofText width _) p.renders) (.ofText width _)) q)
  | doWhile =>
    exact .required fun p _ => .required fun q _ => .pure (.append (.append (.append
      (renders_controlled (.ofText width "do") p) (.ofText width _)) q.renders) (.ofText width _))
  | switch => exact renders_switch ..
  | tryCatch => exact renders_tryCatch ..
  | throw =>
    exact .required fun p _ =>
      .pure (.append (.append (.ofText width _) p.renders) (.ofText width _))
  | «return» =>
    cases ps with
    | nil => exact .pure (.ofText width _)
    | cons p ps => exact .pure (.append (.append (.ofText width _) p.renders) (.ofText width _))
  | «break» | «continue» => exact .pure (renders_jump ..)
  | empty => exact .pure (.ofText width _)
  | assert =>
    refine .required fun p _ => ?_
    simp only [List.getElem?_map]
    have hcheck := (Renders.ofText width "assert ").append p.renders
    cases ps[1]? with
    | none => exact .pure (.append hcheck (.ofText width _))
    | some q =>
      exact .pure (.append (.append (.append hcheck (.ofText width _)) q.renders) (.ofText width _))
  | labeled => exact .required fun p _ => .pure (.append (.ofText width _) p.renders)
  | localClass => exact .required fun p _ => .pure p.renders
  | constructorCall =>
    exact .pure (.append (.append (.ofText width _) (renders_list ..)) (.ofText width _))

/-! ## Section 6: Templates for expressions -/

theorem renders_methodCall :
    RendersAnswer width (Renderer.methodCall a (ps.map (·.asText)))
      (expression .methodCall a (ps.map (·.inLines))) := by
  refine .ite (.required fun p hp => ?_) (.pure ?_)
  · have hlt := (List.getElem?_eq_some_iff.1 hp).1
    rw [Checked.back_ok (by rwa [List.length_map]), lift_ok_bind, ← List.map_drop,
      ← List.map_drop]
    exact .pure (.append (.append (.append p.renders (.ofText width _)) (renders_list ..))
      (.ofText width _))
  · exact .append (.append (.ofText width _) (renders_list ..)) (.ofText width _)

/-- Where there is no room for the brackets both templates panic. -/
theorem renders_arrayCreation :
    RendersAnswer width (Renderer.arrayCreation a (ps.map (·.asText)))
      (arrayCreation a (ps.map (·.inLines))) := by
  have hsizes (qs : List (RenderedPart width)) : Renders width
      (String.join ((qs.map (·.asText)).map fun p => "[" ++ p.body ++ "]"))
      (Fragment.join "" ((qs.map (·.inLines)).map fun p =>
        ("[" : Fragment) ++ p.body ++ ("]" : Fragment))) := by
    induction qs with
    | nil => exact .empty width
    | cons q qs ih =>
      have hq := ((Renders.ofText width "[").append q.renders).append (.ofText width "]")
      rw [List.map_cons, List.map_cons, String.join_cons, List.map_cons, List.map_cons,
        Fragment.join_empty_cons]
      exact .append hq ih
  unfold Renderer.arrayCreation arrayCreation
  simp only [ofKind_map kind_asText, ofKind_map kind_inLines, notOfKind_map kind_asText,
    notOfKind_map kind_inLines, List.getLast?_map]
  cases Text.repeated (a.count Key.extraDims) "[]" with
  | error e => exact .error _
  | ok groups =>
    rw [lift_ok_bind, lift_ok_bind]
    have hsized := ((Renders.ofText width ("new " ++ textAt a Key.type)).append
      (hsizes (ps.filter (·.kind ≠ .expression .arrayInitializer)))).append (.ofText width groups)
    cases (ps.filter (·.kind = .expression .arrayInitializer)).getLast? with
    | none => exact .pure hsized
    | some init => exact .pure (.append (.append hsized (.ofText width _)) init.renders)

theorem renders_unary {s : String} {f : Fragment} (h : Renders width s f) :
    Renders width (Renderer.unary a s) (unary a f) := by
  unfold Renderer.unary unary
  dsimp only
  rw [h.mergesWith_eq]
  exact .ite (.append h (.ofText width _))
    (.ite (.append (.ofText width _) h) (.append (.ofText width _) h))

/-- Only a single parameter is looked at. -/
theorem renders_lambda :
    RendersAnswer width (Renderer.lambda (ps.map (·.asText))) (lambda (ps.map (·.inLines))) := by
  have hlast {τ : Type} {part : RenderedPart width → Part τ} (h : ∀ p, (part p).kind = p.kind) :
      (ps.map part).getLast?.toList.filter (·.kind ≠ .parameter) =
        (ps.getLast?.toList.filter (·.kind ≠ .parameter)).map part := by
    rw [List.getLast?_map]
    cases ps.getLast? with
    | none => rfl
    | some p => exact notOfKind_map h .parameter [p]
  unfold Renderer.lambda lambda
  simp only [hlast kind_asText, hlast kind_inLines, ofKind_map kind_asText, ofKind_map kind_inLines]
  refine .required fun body _ => ?_
  have hmany (params : List (RenderedPart width)) := Renders.append (.append (.append
    (.ofText width "(") (renders_list params ", ")) (.ofText width ") -> ")) body.renders
  generalize ps.filter (·.kind = .parameter) = params
  match params with
  | [] => exact .pure (hmany [])
  | [p] =>
    have hitem : Checked.item ([p].map (·.asText)) 0 = .ok p.asText := Checked.item_ok rfl
    rw [hitem, if_pos (by rw [List.length_map, List.length_singleton]), lift_ok_bind, pure_bind,
      lift_ok_bind]
    simp only [decide_eq_true_eq]
    exact .ite (.pure (.append (.append p.renders (.ofText width " -> ")) body.renders))
      (.pure (hmany [p]))
  | p :: q :: rest => exact .pure (hmany (p :: q :: rest))

theorem renders_expression (kind : ExpressionKind) :
    RendersAnswer width (Renderer.expression kind a (ps.map (·.asText)))
      (expression kind a (ps.map (·.inLines))) := by
  cases kind with
  | name | literal | classLiteral => exact .pure (.ofText width _)
  | this | super => exact .pure (.ite (.ofText width _) (.ofText width _))
  | fieldAccess | methodReference | instanceOf =>
    exact .required fun p _ => .pure (.append p.renders (.ofText width _))
  | methodCall => exact renders_methodCall ..
  | objectCreation | arrayInitializer =>
    exact .pure (.append (.append (.ofText width _) (renders_list ..)) (.ofText width _))
  | arrayCreation => exact renders_arrayCreation ..
  | arrayAccess =>
    exact .required fun p _ => .required fun q _ => .pure
      (.append (.append (.append p.renders (.ofText width _)) q.renders) (.ofText width _))
  | unary => exact .required fun p _ => .pure (renders_unary a p.renders)
  | binary | assign =>
    exact .required fun p _ => .required fun q _ =>
      .pure (.append (.append p.renders (.ofText width _)) q.renders)
  | conditional =>
    exact .required fun p _ => .required fun q _ => .required fun r _ => .pure
      (.append (.append (.append (.append p.renders (.ofText width _)) q.renders)
        (.ofText width _)) r.renders)
  | cast => exact .required fun p _ => .pure (.append (.ofText width _) p.renders)
  | enclosed =>
    exact .required fun p _ => .pure (.append (.append (.ofText width _) p.renders)
      (.ofText width _))
  | lambda => exact renders_lambda ..
  | annotationUse =>
    unfold Renderer.expression expression
    simp only [List.isEmpty_map]
    exact .ite (.pure (.ofText width _))
      (.pure (.append (.append (.ofText width _) (renders_list ..)) (.ofText width _)))

/-! ## Section 7: All kinds -/

/-- From texts and their fragments every template makes a text and its
    fragment, or fails in one way. -/
theorem renders_node (kind : Kind) :
    RendersAnswer width (Renderer.node (Text.copies width " ") kind a (ps.map (·.asText)))
      (node kind a (ps.map (·.inLines))) := by
  cases kind with
  | compilationUnit =>
    obtain ⟨s, hs, hrenders⟩ := renders_items ps
    show RendersAnswer width (Renderer.items _) (.ok _)
    rw [hs]
    exact .ok hrenders
  | packageDecl => exact .ok (renders_packageDecl a ps)
  | importDecl => exact .ok (.ofText width _)
  | type k => exact renders_typeDecl a ps k
  | member k => exact renders_member a ps k
  | parameter => exact .ok (renders_parameter a ps)
  | variableDeclarator => exact .ok (renders_variableDeclarator a ps)
  | typeParameter => exact .ok (renders_typeParameter a ps)
  | catchClause => exact renders_catchClause ps
  | switchEntry => exact renders_switchEntry a ps
  | statement k => exact renders_statement a ps k
  | expression k => exact renders_expression a ps k
  | comment k => cases k <;> exact .ok (.ofText width _)

end Template

/-! ## Section 8: Finished texts -/

theorem Text.dropReturn_append {xs : List Char} (h : '\r' ∉ xs) (ys : List Char) :
    dropReturn (xs ++ ys) = xs ++ dropReturn ys := by
  rcases List.eq_nil_or_concat ys with rfl | ⟨zs, c, rfl⟩
  · rw [List.append_nil, dropReturn]
    split
    · rename_i rest hrev
      exact absurd (List.mem_reverse.1 (hrev ▸ List.mem_cons_self)) h
    · exact (List.append_nil xs).symm
  · rw [List.concat_eq_append, ← List.append_assoc]
    by_cases hc : c = '\r'
    · subst hc
      simp [dropReturn]
    · simp [dropReturn, hc]

/-- Dropping a carriage return leaves the spaces of a line alone. -/
theorem Line.indented_dropReturn (width : Nat) (l : Line) :
    l.dropReturn.indented width = Text.dropReturn (l.indented width) := by
  have hspaces : '\r' ∉ List.replicate (width * l.level) ' ' :=
    fun h => absurd (List.mem_replicate.1 h).2 (by decide)
  rw [Line.indented, Line.indented, Text.dropReturn_append hspaces, Line.dropReturn,
    String.toList_ofList]

theorem Line.Tidy.indented_eq_nil_iff {l : Line} (h : l.Tidy) (width : Nat) :
    l.indented width = [] ↔ l.text = "" := by
  constructor
  · intro hnil
    rw [indented, List.append_eq_nil_iff] at hnil
    exact String.toList_eq_nil_iff.1 hnil.2
  · intro hempty
    rw [indented, hempty, h.level_of_empty hempty]
    rfl

/-- The lines that a text is cut into are those of its fragment. -/
theorem Fragment.bareLines_map_indented (width : Nat) {l m : Line} {ls : List Line}
    (h : ∀ k ∈ l :: m :: ls, k.Tidy) :
    Text.bareLines ((l :: m :: ls).map (Line.indented width)) =
      (written (l :: m :: ls)).map (Line.indented width) := by
  induction ls generalizing l m with
  | nil =>
    have hlast := (h m (by simp)).indented_eq_nil_iff width
    show Text.dropReturn _ :: (if m.indented width = [] then _ else _) =
      List.map _ (if m.text = "" then _ else _)
    by_cases hm : m.text = ""
    · rw [if_pos (hlast.2 hm), if_pos hm, List.map_singleton, Line.indented_dropReturn]
    · rw [if_neg (mt hlast.1 hm), if_neg hm, List.map_cons, List.map_singleton,
        Line.indented_dropReturn]
  | cons k ks ih =>
    have hrest := ih (l := m) (m := k) fun j hj => h j (List.mem_cons_of_mem l hj)
    show Text.dropReturn _ :: Text.bareLines ((m :: k :: ks).map _) =
      Line.indented width l.dropReturn :: (written (m :: k :: ks)).map _
    rw [hrest, Line.indented_dropReturn]

theorem Text.intercalate_append (sep : String) {ls : List String} (h : ls ≠ []) :
    sep.intercalate ls ++ sep = String.join (ls.map (· ++ sep)) := by
  induction ls with
  | nil => exact absurd rfl h
  | cons l ls ih =>
    cases ls with
    | nil => simp [String.intercalate_singleton, String.join_cons]
    | cons m ls =>
      rw [String.intercalate_cons_cons, String.append_assoc, ih (List.cons_ne_nil m ls),
        List.map_cons, List.map_cons, List.map_cons, String.join_cons, String.join_cons,
        String.join_cons]

/-- Ending the lines of a text is writing its fragment. -/
theorem Renders.finish_eq {layout : Layout} {s : String} {f : Fragment}
    (h : Renders layout.indentWidth s f) : layout.finish s = f.write layout := by
  have hlines : ∀ l ∈ f.lines.map (Line.indented layout.indentWidth), '\n' ∉ l := by
    intro p hp
    obtain ⟨l, hl, rfl⟩ := List.mem_map.1 hp
    exact Line.newline_not_mem_indented (h.tidy l hl).one_line _
  have hpieces : Text.pieces '\n' s.toList = f.lines.map (Line.indented layout.indentWidth) := by
    rw [h.toList_eq]
    exact Text.pieces_intercalate (by simpa using f.lines_ne_nil) hlines
  have hwrite (l : Line) : String.ofList (l.indented layout.indentWidth) ++ layout.lineTerminator =
      layout.writeLine l := by
    rw [Layout.writeLine, Line.indented, String.ofList_append, String.ofList_toList]
  obtain ⟨head, tail⟩ := f
  rw [Layout.finish, hpieces, Fragment.write]
  congr 1
  cases tail with
  | nil =>
    -- The only line is written even if it is empty.
    show layout.lineTerminator.intercalate
      ((if Line.indented layout.indentWidth ⟨0, head⟩ = [] then [] else _).map _) ++ _ =
        String.join [layout.writeLine ⟨0, head⟩]
    rw [String.join_cons, String.join_nil, String.append_empty, ← hwrite]
    split
    · rename_i hnil
      rw [hnil]
      rfl
    · rw [List.map_singleton, String.intercalate_singleton]
  | cons m ms =>
    have hbare := Fragment.bareLines_map_indented layout.indentWidth h.tidy
    have hne : ((Fragment.written (⟨0, head⟩ :: m :: ms)).map
        (Line.indented layout.indentWidth)).map String.ofList ≠ [] := by
      simpa using Fragment.written_ne_nil ⟨0, head⟩ (m :: ms)
    rw [Fragment.lines]
    dsimp only
    rw [hbare, Text.intercalate_append _ hne, List.map_map, List.map_map]
    congr 1
    exact List.map_congr_left fun l _ => hwrite l

end JavaTree
