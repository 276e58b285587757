import JavaTree.Proofs.Print.Brackets
import JavaTree.Proofs.Print.Structural
import JavaTree.Proofs.Tree.Links

/-! # Printed text is balanced

    A template writes every bracket that it opens, and closes it again behind
    whatever the parts of the node are.  So a node is balanced if its parts
    are and the texts among its attributes are nested
    (`Template.balanced_node`), and with it everything that is printed.

    The main statement is `Printer.print_isNested`. -/

namespace JavaTree

open Brackets

/-! ## Section 1: Attributes, parts and answers -/

/-- Every text among the attributes is nested. -/
def Attributes.Nested (a : Attributes) : Prop :=
  ∀ key s, a.get? key = some (.text s) → IsNested s

theorem Attributes.nested_of_entries {a : Attributes}
    (h : ∀ e ∈ a.entries, ∀ s ∈ e.2.text?, IsNested s) : a.Nested := by
  intro key s hs
  obtain ⟨before, behind, hentries, -⟩ := List.lookup_eq_some_iff.1 hs
  exact h (key, .text s) (by simp [hentries]) s rfl

namespace Attributes.Nested

variable {a : Attributes} (ha : a.Nested)

include ha

theorem isNested_of_text? {key s : String} (h : a.text? key = some s) : IsNested s := by
  obtain ⟨v, hget, hv⟩ := Option.bind_eq_some_iff.1 h
  cases v with
  | text t =>
    obtain rfl := Option.some.inj hv
    exact ha key t hget
  | _ => cases hv

theorem balanced_of_text? {key s : String} (h : a.text? key = some s) :
    (Fragment.ofText s).Balanced :=
  Fragment.balanced_ofText_iff.2 (ha.isNested_of_text? h)

theorem balanced_of_nonempty? {key s : String} (h : a.nonempty? key = some s) :
    (Fragment.ofText s).Balanced :=
  ha.balanced_of_text? (Option.filter_eq_some_iff.1 h).1

theorem balanced_getD (key other : String) (h : other.toList.filter isBracket = []) :
    (Fragment.ofText ((a.text? key).getD other)).Balanced := by
  cases hs : a.text? key with
  | none => exact .plain h
  | some s => exact ha.balanced_of_text? hs

theorem balanced_textAt (key : String) : (Fragment.ofText (Template.textAt a key)).Balanced :=
  ha.balanced_getD key "" rfl

theorem balanced_wordAt (key : String) : (Fragment.ofText (Template.wordAt a key)).Balanced := by
  unfold Template.wordAt
  split
  · rename_i s hs
    rw [Fragment.ofText_append]
    exact (ha.balanced_of_nonempty? hs).append (.plain rfl)
  · exact .empty

theorem balanced_clauseAt {word : String} (h : word.toList.filter isBracket = []) (key : String) :
    (Fragment.ofText (Template.clauseAt a word key)).Balanced := by
  unfold Template.clauseAt
  split
  · rename_i s hs
    simp only [Fragment.ofText_append]
    exact .append (.append (.append (.plain rfl) (.plain h)) (.plain rfl))
      (ha.balanced_of_nonempty? hs)
  · exact .empty

end Attributes.Nested

/-- The texts of all parts are balanced. -/
def Part.AllBalanced (ps : List (Part Fragment)) : Prop := ∀ p ∈ ps, p.body.Balanced

namespace Part.AllBalanced

variable {ps qs : List (Part Fragment)}

theorem mono (h : AllBalanced ps) (hsub : qs ⊆ ps) : AllBalanced qs := fun p hp => h p (hsub hp)

theorem filter (h : AllBalanced ps) (test : Part Fragment → Bool) : AllBalanced (ps.filter test) :=
  h.mono (List.filter_subset_self _)

theorem take (h : AllBalanced ps) (k : Nat) : AllBalanced (ps.take k) :=
  h.mono (List.take_subset k ps)

theorem drop (h : AllBalanced ps) (k : Nat) : AllBalanced (ps.drop k) :=
  h.mono (List.drop_subset k ps)

end Part.AllBalanced

/-- An answer is balanced if it is a failure or a balanced text. -/
def BalancedAnswer (r : Except RenderFailure Fragment) : Prop := ∀ f, r = .ok f → f.Balanced

namespace BalancedAnswer

theorem pure {f : Fragment} (h : f.Balanced) :
    BalancedAnswer (Pure.pure f : Except RenderFailure Fragment) := by
  intro g hg
  obtain rfl := Except.ok.inj hg
  exact h

theorem ite {p : Prop} [Decidable p] {r s : Except RenderFailure Fragment} (hr : BalancedAnswer r)
    (hs : BalancedAnswer s) : BalancedAnswer (if p then r else s) := by
  split
  · exact hr
  · exact hs

theorem required {kind : Kind} {ps : List (Part Fragment)} {i : Nat} {role : String}
    {next : Part Fragment → Except RenderFailure Fragment} (h : ∀ p ∈ ps, BalancedAnswer (next p)) :
    BalancedAnswer (Template.required kind ps i role >>= next) := by
  unfold Template.required
  cases hp : ps[i]? with
  | none =>
    intro f hf
    cases hf
  | some p => exact h p (List.mem_of_getElem? hp)

end BalancedAnswer

namespace Template

/-! ## Section 2: Layout of bodies -/

variable {a : Attributes} {ps : List (Part Fragment)}

theorem balanced_list (sep : String) (hsep : sep.toList.filter isBracket = [])
    (hps : Part.AllBalanced ps) : (list sep ps).Balanced := by
  apply Fragment.Balanced.join (.plain hsep)
  intro f hf
  obtain ⟨p, hp, rfl⟩ := List.mem_map.1 hf
  exact hps p hp

theorem balanced_trimmed (sep : String) (hsep : sep.toList.filter isBracket = [])
    (hps : Part.AllBalanced ps) :
    (Fragment.join sep (ps.map (·.body.trimSemicolons))).Balanced := by
  apply Fragment.Balanced.join (.plain hsep)
  intro f hf
  obtain ⟨p, hp, rfl⟩ := List.mem_map.1 hf
  exact (hps p hp).trimSemicolons

theorem balanced_joinEnding {ending : String} (hending : ending.toList.filter isBracket = [])
    (hps : Part.AllBalanced ps) : (Fragment.joinEnding ending (ps.map (·.body))).Balanced := by
  apply Fragment.Balanced.joinEnding (.plain hending)
  intro f hf
  obtain ⟨p, hp, rfl⟩ := List.mem_map.1 hf
  exact hps p hp

theorem balanced_ownLines (hps : Part.AllBalanced ps) : (ownLines ps).Balanced :=
  balanced_joinEnding rfl hps

theorem balanced_spaced (hps : Part.AllBalanced ps) : (spaced ps).Balanced :=
  balanced_joinEnding rfl hps

theorem balanced_items (hps : Part.AllBalanced ps) : (items ps).Balanced := by
  induction ps with
  | nil => exact .empty
  | cons p ps ih =>
    have hp := hps p List.mem_cons_self
    have hrest := ih (hps.mono (List.subset_cons_self p ps))
    cases ps with
    | nil => exact hp
    | cons q ps =>
      unfold items
      -- One line break or two, as the two kinds ask for.
      refine hp.append (.append ?_ hrest)
      split <;> exact .plain rfl

theorem balanced_braced {f : Fragment} (h : f.Balanced) : (braced f).Balanced := by
  have hopened : (Fragment.nest "\x7b" f).Opens '\x7d' := .nest (.text fun _ => rfl) h
  exact .ite (.text fun _ => rfl) (hopened.close (.text fun _ => rfl))

theorem balanced_controlled {header : Fragment} {body : Part Fragment} (hheader : header.Balanced)
    (hbody : body.body.Balanced) : (controlled header body).Balanced :=
  .ite ((hheader.append (.plain rfl)).append hbody) (hheader.nest hbody)

/-! ## Section 3: Declarations -/

theorem balanced_packageDecl (ha : a.Nested) (hps : Part.AllBalanced ps) :
    (packageDecl a ps).Balanced := by
  unfold packageDecl
  simp only [Fragment.ofText_append]
  exact (balanced_ownLines hps).append
    (.append (.append (.plain rfl) (ha.balanced_textAt _)) (.plain rfl))

theorem balanced_importDecl (ha : a.Nested) : (importDecl a).Balanced := by
  unfold importDecl
  simp only [Fragment.ofText_append]
  have hstatic : (Fragment.ofText (if a.flag Key.isStatic then "static " else "")).Balanced := by
    split <;> exact .plain rfl
  have hall : (Fragment.ofText (if a.flag Key.asterisk then ".*" else "")).Balanced := by
    split <;> exact .plain rfl
  exact .append (.append (.append (.append (.plain rfl) hstatic) (ha.balanced_textAt _)) hall)
    (.plain rfl)

theorem balanced_typeParameters (hps : Part.AllBalanced ps) : (typeParameters ps).Balanced :=
  .ite .empty (.append (.append (.plain rfl) (balanced_list _ rfl hps)) (.plain rfl))

theorem balanced_typeBody (kind : TypeKind) (hps : Part.AllBalanced ps) :
    (typeBody kind ps).Balanced := by
  have hconstants := balanced_list ", " rfl (hps.filter (·.kind = .member .enumConstant))
  have hothers := balanced_items (hps.filter (·.kind ≠ .member .enumConstant))
  exact .ite (.ite hconstants (.append (hconstants.append (.plain rfl)) hothers))
    (balanced_items hps)

theorem balanced_typeDecl (kind : TypeKind) (ha : a.Nested) (hps : Part.AllBalanced ps) :
    (typeDecl kind a ps).Balanced := by
  have hrest := hps.filter (!·.kind.isAnnotationUse)
  have hkeyword : kind.keyword.toList.filter isBracket = [] := by cases kind <;> rfl
  have hparams := balanced_typeParameters (hrest.filter (·.kind = .typeParameter))
  have hbody := balanced_typeBody kind (hrest.filter (·.kind ≠ .typeParameter))
  have hwords : (Fragment.ofText
      (wordAt a Key.modifiers ++ kind.keyword ++ " " ++ textAt a Key.name)).Balanced := by
    simp only [Fragment.ofText_append]
    exact .append (.append (.append (ha.balanced_wordAt _) (.plain hkeyword)) (.plain rfl))
      (ha.balanced_textAt _)
  have hclauses : (Fragment.ofText (clauseAt a "extends" Key.superTypes
      ++ clauseAt a "implements" Key.interfaces)).Balanced := by
    rw [Fragment.ofText_append]
    exact (ha.balanced_clauseAt rfl _).append (ha.balanced_clauseAt rfl _)
  have hheader := (((balanced_ownLines (hps.filter (·.kind.isAnnotationUse))).append hwords).append
    hparams).append hclauses
  refine .ite (hheader.append (.text fun _ => rfl)) ?_
  -- The brace opens behind the header, and the members are nested below it.
  exact ((hheader.opens (.text fun _ => rfl)).nest hbody).close (.text fun _ => rfl)

theorem balanced_callable (isMethod : Bool) (ha : a.Nested) (hps : Part.AllBalanced ps) :
    (callable isMethod a ps).Balanced := by
  have htypes := hps.filter (·.kind = .typeParameter)
  have hrest := hps.filter (·.kind ≠ .typeParameter)
  have hparams := balanced_list ", " rfl (hrest.filter (·.kind = .parameter))
  have hbodies := hrest.filter (·.kind ≠ .parameter)
  have hopening : (callable.ofTextWithTypes a (ofKind .typeParameter ps)).Balanced :=
    .ite (ha.balanced_wordAt _)
      (.append (.append (ha.balanced_wordAt _) (balanced_typeParameters htypes)) (.plain rfl))
  have htype : (Fragment.ofText
      (if isMethod then (a.text? Key.type).getD "void" ++ " " else "")).Balanced := by
    split
    · rw [Fragment.ofText_append]
      exact (ha.balanced_getD _ _ rfl).append (.plain rfl)
    · exact .empty
  have hheader : (callable.ofTextWithTypes a (ofKind .typeParameter ps)
      ++ (((if isMethod then (a.text? Key.type).getD "void" ++ " " else "")
        ++ textAt a Key.name ++ "(" : String) : Fragment)
      ++ list ", " (ofKind .parameter (notOfKind .typeParameter ps))
      ++ ((")" ++ clauseAt a "throws" Key.thrown : String) : Fragment)).Balanced := by
    simp only [Fragment.ofText_append]
    -- The parenthesis of the parameters closes in front of the `throws` clause.
    have hopened := hopening.opens ((htype.append (ha.balanced_textAt Key.name)).opens
      (.text (s := "(") fun _ => rfl))
    exact (hopened.append hparams).close (.append (.text fun _ => rfl) (ha.balanced_clauseAt rfl _))
  unfold callable
  dsimp only
  split
  · rename_i body rest hbody
    have hmem : body ∈ notOfKind .parameter (notOfKind .typeParameter ps) := by
      rw [hbody]
      exact List.mem_cons_self
    exact (hheader.append (.plain rfl)).append (hbodies body hmem)
  · exact hheader.append (.plain rfl)

theorem balanced_member (kind : MemberKind) (ha : a.Nested) (hps : Part.AllBalanced ps) :
    BalancedAnswer (member kind a ps) := by
  have hcomments := balanced_ownLines (hps.filter (·.kind.isComment))
  have hothers := hps.filter (!·.kind.isComment)
  have hannotations := hothers.filter (·.kind.isAnnotationUse)
  have hlines := hcomments.append (balanced_ownLines hannotations)
  have hrest := hothers.filter (!·.kind.isAnnotationUse)
  cases kind with
  | method => exact .pure (hlines.append (balanced_callable true ha hrest))
  | constructor => exact .pure (hlines.append (balanced_callable false ha hrest))
  | field =>
    have htype :
        (Fragment.ofText (wordAt a Key.modifiers ++ textAt a Key.type ++ " ")).Balanced := by
      simp only [Fragment.ofText_append]
      exact .append (.append (ha.balanced_wordAt _) (ha.balanced_textAt _)) (.plain rfl)
    exact .pure (.append (.append (hlines.append htype) (balanced_list _ rfl hrest)) (.plain rfl))
  | enumConstant =>
    have hnamed := (hcomments.append (balanced_spaced hannotations)).append
      (ha.balanced_textAt Key.name)
    refine .ite (.pure hnamed) (.pure ?_)
    exact ((hnamed.opens (.text fun _ => rfl)).append (balanced_list _ rfl hrest)).close
      (.text fun _ => rfl)
  | annotationMember =>
    have hsignature : (Fragment.ofText (wordAt a Key.modifiers ++ textAt a Key.type ++ " "
        ++ textAt a Key.name ++ "()")).Balanced := by
      simp only [Fragment.ofText_append]
      refine .append (.append (.append (.append (ha.balanced_wordAt _) (ha.balanced_textAt _))
        (.plain rfl)) (ha.balanced_textAt _)) (.text fun _ => rfl)
    have hnamed := hlines.append hsignature
    unfold member
    dsimp only
    split
    · rename_i value rest hvalue
      have hmem : value ∈ withoutAnnotations (ps.filter (!·.kind.isComment)) := by
        rw [hvalue]
        exact List.mem_cons_self
      exact .pure (.append (.append (hnamed.append (.plain rfl)) (hrest value hmem)) (.plain rfl))
    · exact .pure (hnamed.append (.plain rfl))
  | initializer =>
    refine .required fun body hbody => .pure (.append (hcomments.append ?_) (hrest body hbody))
    split <;> exact .plain rfl

theorem balanced_parameter (ha : a.Nested) (hps : Part.AllBalanced ps) :
    (parameter a ps).Balanced := by
  refine .ite (ha.balanced_textAt _) (.append (balanced_spaced hps) ?_)
  simp only [Fragment.ofText_append]
  refine .append (.append (.append (.append (ha.balanced_wordAt _) (ha.balanced_textAt _)) ?_)
    (.plain rfl)) (ha.balanced_textAt _)
  split <;> exact .plain rfl

theorem balanced_variableDeclarator (ha : a.Nested) (hps : Part.AllBalanced ps) :
    (variableDeclarator a ps).Balanced := by
  cases ps with
  | nil => exact ha.balanced_textAt _
  | cons p ps =>
    unfold variableDeclarator
    rw [Fragment.ofText_append]
    exact .append (.append (ha.balanced_textAt _) (.plain rfl)) (hps p List.mem_cons_self)

theorem balanced_typeParameter (ha : a.Nested) (hps : Part.AllBalanced ps) :
    (typeParameter a ps).Balanced := by
  unfold typeParameter
  rw [Fragment.ofText_append]
  exact (balanced_spaced hps).append
    (.append (ha.balanced_textAt _) (ha.balanced_clauseAt rfl _))

theorem balanced_catchClause (hps : Part.AllBalanced ps) : BalancedAnswer (catchClause ps) := by
  refine .required fun param hparam => .required fun body hbody => .pure ?_
  have hcaught := hps.filter _ param hparam
  exact .append (.enclosed (.text fun _ => rfl) hcaught (.text fun _ => rfl))
    (hps.filter _ body hbody)

theorem balanced_switchEntry (hps : Part.AllBalanced ps) : (switchEntry a ps).Balanced := by
  have hlabels := balanced_list ", " rfl (hps.take (a.count Key.labels))
  have hbody := balanced_list "\n" rfl (hps.drop (a.count Key.labels))
  have hheader : (if (ps.take (a.count Key.labels)).isEmpty then ("default:" : Fragment)
      else ("case " : Fragment) ++ list ", " (ps.take (a.count Key.labels))
        ++ (":" : Fragment)).Balanced :=
    .ite (.plain rfl) (.append (.append (.plain rfl) hlabels) (.plain rfl))
  exact .ite hheader (hheader.nest hbody)

/-! ## Section 4: Statements -/

theorem balanced_localVariable (ha : a.Nested) (hps : Part.AllBalanced ps) :
    (localVariable a ps).Balanced := by
  unfold localVariable
  simp only [Fragment.ofText_append]
  have htype := ((ha.balanced_wordAt Key.modifiers).append
    (ha.balanced_getD Key.type "var" rfl)).append (.plain (s := " ") rfl)
  exact .append (.append ((balanced_spaced (hps.filter _)).append htype)
    (balanced_list _ rfl (hps.filter _))) (.plain rfl)

theorem balanced_conditional {condition thenPart : Part Fragment}
    (hcondition : condition.body.Balanced) (hthen : thenPart.body.Balanced)
    {elsePart : Option (Part Fragment)} (helse : ∀ e ∈ elsePart, e.body.Balanced) :
    (conditional condition thenPart elsePart).Balanced := by
  have hheader : (conditional.header condition).Balanced :=
    .enclosed (.text fun _ => rfl) hcondition (.text fun _ => rfl)
  cases elsePart with
  | none => exact balanced_controlled hheader hthen
  | some e =>
    -- Braces that are added close again, so they can be there or not.
    have hwrapped := (hheader.append (.plain (s := " ") rfl)).append (balanced_braced hthen)
    have hupper : (if !thenPart.kind.isBlock && thenPart.endsInOpenIf then
        conditional.header condition ++ (" " : Fragment) ++ braced thenPart.body
        else controlled (conditional.header condition) thenPart).Balanced :=
      .ite hwrapped (balanced_controlled hheader hthen)
    have hword : (Fragment.ofText
        (if thenPart.kind.isBlock || (!thenPart.kind.isBlock && thenPart.endsInOpenIf) then " else"
          else "\nelse")).Balanced := by
      split <;> exact .plain rfl
    have he := helse e rfl
    exact .ite (.append ((hupper.append hword).append (.plain rfl)) he)
      (balanced_controlled (hupper.append hword) he)

theorem balanced_forLoop (hps : Part.AllBalanced ps) : BalancedAnswer (forLoop a ps) := by
  refine .required fun body hbody => .pure (balanced_controlled ?_ (hps body hbody))
  have hhead := hps.take (a.count Key.init + (if a.flag Key.condition then 1 else 0)
    + a.count Key.update)
  have hinits := balanced_trimmed ", " rfl (hhead.take (a.count Key.init))
  have htest := balanced_list "" rfl ((hhead.drop (a.count Key.init)).take
    (if a.flag Key.condition then 1 else 0))
  have hupdates := balanced_list ", " rfl (hhead.drop (a.count Key.init
    + (if a.flag Key.condition then 1 else 0)))
  -- The parenthesis stays open over all three parts.
  have hopened := Fragment.Opens.append (.text (s := "for (") fun _ => rfl) hinits
  have htested := (hopened.append (.plain (s := "; ") rfl)).append htest
  exact ((htested.append (.plain (s := "; ") rfl)).append hupdates).close (.text fun _ => rfl)

theorem balanced_foldl {f : Fragment} (hf : f.Balanced) (hps : Part.AllBalanced ps) :
    (ps.foldl (fun f p => f ++ (" " : Fragment) ++ p.body) f).Balanced := by
  induction ps generalizing f with
  | nil => exact hf
  | cons p ps ih =>
    apply ih ((hf.append (.plain rfl)).append (hps p List.mem_cons_self))
    exact hps.mono (List.subset_cons_self p ps)

theorem balanced_tryCatch (hps : Part.AllBalanced ps) : BalancedAnswer (tryCatch a ps) := by
  refine .required fun block hblock => ?_
  have hresources := balanced_trimmed "; " rfl (hps.take (a.count Key.resources))
  have hopened : (if a.count Key.resources = 0 then ("try " : Fragment)
      else ("try (" : Fragment)
        ++ Fragment.join "; " ((ps.take (a.count Key.resources)).map (·.body.trimSemicolons))
        ++ (") " : Fragment)).Balanced :=
    .ite (.plain rfl) (.enclosed (.text fun _ => rfl) hresources (.text fun _ => rfl))
  have hstart := hopened.append (hps block hblock)
  have htail := hps.drop (a.count Key.resources + 1)
  cases hfinally : a.flag Key.hasFinally with
  | false => exact .pure (balanced_foldl hstart htail)
  | true =>
    -- The last of the parts behind the block is the `finally`, if there is one.
    have hcatches := balanced_foldl hstart (htail.mono (List.dropLast_subset _))
    cases hlast : (ps.drop (a.count Key.resources + 1)).getLast? with
    | none =>
      simp only [hlast]
      exact .pure hcatches
    | some last =>
      simp only [hlast]
      exact .pure (.append (hcatches.append (.plain rfl)) (htail last (List.mem_of_getLast? hlast)))

theorem balanced_jump {word : String} (hword : word.toList.filter isBracket = []) (ha : a.Nested) :
    (jump word a).Balanced := by
  unfold jump
  split
  · rename_i label hlabel
    simp only [Fragment.ofText_append]
    exact .append (.append (.append (.plain hword) (.plain rfl)) (ha.balanced_of_nonempty? hlabel))
      (.plain rfl)
  · rw [Fragment.ofText_append]
    exact .append (.plain hword) (.plain rfl)

theorem balanced_statement (kind : StatementKind) (ha : a.Nested) (hps : Part.AllBalanced ps) :
    BalancedAnswer (statement kind a ps) := by
  cases kind with
  | block => exact .pure (balanced_braced (balanced_list _ rfl hps))
  | expression => exact .required fun e he => .pure ((hps e he).append (.plain rfl))
  | localVariable => exact .pure (balanced_localVariable ha hps)
  | conditional =>
    refine .required fun c hc => .required fun t ht => .pure ?_
    apply balanced_conditional (hps c hc) (hps t ht)
    intro e he
    exact hps e (List.mem_of_getElem? he)
  | «for» => exact balanced_forLoop hps
  | forEach =>
    refine .required fun iterable hiterable => .required fun body hbody =>
      .pure (balanced_controlled ?_ (hps body hbody))
    simp only [Fragment.ofText_append]
    have hopened := Fragment.Opens.append (.text (s := "for (") fun _ => rfl)
      (ha.balanced_wordAt Key.modifiers)
    have htyped := (hopened.append (ha.balanced_getD Key.type "var" rfl)).append
      (.plain (s := " ") rfl)
    have hnamed := (htyped.append (ha.balanced_textAt Key.name)).append (.plain (s := " : ") rfl)
    exact (hnamed.append (hps iterable hiterable)).close (.text fun _ => rfl)
  | «while» =>
    refine .required fun c hc => .required fun body hbody => .pure ?_
    exact balanced_controlled (.enclosed (.text fun _ => rfl) (hps c hc) (.text fun _ => rfl))
      (hps body hbody)
  | doWhile =>
    refine .required fun body hbody => .required fun c hc => .pure ?_
    have hdo : (controlled "do" body).Balanced := balanced_controlled (.plain rfl) (hps body hbody)
    have hword : (Fragment.ofText ((if body.kind.isBlock then " " else "\n") ++ "while (")).Opens
        ')' := by
      split <;> exact .text fun _ => rfl
    exact ((hdo.opens hword).append (hps c hc)).close (.text fun _ => rfl)
  | switch =>
    refine .required fun selector hselector => .pure (.append ?_ ?_)
    · exact .enclosed (.text fun _ => rfl) (hps selector hselector) (.text fun _ => rfl)
    · exact balanced_braced (balanced_list _ rfl (hps.drop 1))
  | tryCatch => exact balanced_tryCatch hps
  | throw =>
    exact .required fun e he => .pure (.append (.append (.plain rfl) (hps e he)) (.plain rfl))
  | «return» =>
    cases ps with
    | nil => exact .pure (.plain rfl)
    | cons value rest =>
      exact .pure (.append (.append (.plain rfl) (hps value List.mem_cons_self)) (.plain rfl))
  | «break» => exact .pure (balanced_jump rfl ha)
  | «continue» => exact .pure (balanced_jump rfl ha)
  | assert =>
    refine .required fun check hcheck => ?_
    have hchecked := Fragment.Balanced.append (.plain (s := "assert ") rfl) (hps check hcheck)
    split
    · rename_i message hmessage
      exact .pure (.append (.append (hchecked.append (.plain rfl))
        (hps message (List.mem_of_getElem? hmessage))) (.plain rfl))
    · exact .pure (hchecked.append (.plain rfl))
  | synchronized =>
    refine .required fun lock hlock => .required fun body hbody => .pure ?_
    exact balanced_controlled
      (.enclosed (.text fun _ => rfl) (hps lock hlock) (.text fun _ => rfl)) (hps body hbody)
  | labeled =>
    refine .required fun body hbody => .pure ?_
    rw [Fragment.ofText_append]
    exact .append (.append (ha.balanced_textAt _) (.plain rfl)) (hps body hbody)
  | empty => exact .pure (.plain rfl)
  | localClass => exact .required fun d hd => .pure (hps d hd)
  | constructorCall =>
    refine .pure ?_
    rw [Fragment.ofText_append]
    have hopened := (ha.balanced_getD Key.name "super" rfl).opens (.text (s := "(") fun _ => rfl)
    exact (hopened.append (balanced_list _ rfl hps)).close (.text fun _ => rfl)

/-! ## Section 5: Expressions -/

/-- Marking line breaks keeps the brackets. -/
theorem balanced_literal (ha : a.Nested) : (literal a).Balanced := by
  have hmarked : ∀ cs : List Char, (cs.map fun c => if c = '\n' then lineMark else c).filter
      isBracket = cs.filter isBracket := by
    intro cs
    induction cs with
    | nil => rfl
    | cons c cs ih =>
      by_cases hc : c = '\n'
      · rw [List.map_cons, if_pos hc, List.filter_cons, List.filter_cons, ih, hc]
        rfl
      · rw [List.map_cons, if_neg hc, List.filter_cons, List.filter_cons, ih]
  have htext := ha.balanced_getD Key.value "null" rfl
  intro st
  apply Fragment.Takes.text
  rw [String.toList_ofList, hmarked, ← Fragment.brackets_ofText]
  exact htext st

theorem balanced_selfReference {word : String} (hword : word.toList.filter isBracket = [])
    (ha : a.Nested) : (selfReference word a).Balanced := by
  refine .ite (.plain hword) ?_
  simp only [Fragment.ofText_append]
  exact .append (.append (ha.balanced_textAt _) (.plain rfl)) (.plain hword)

theorem balanced_arrayCreation (ha : a.Nested) (hps : Part.AllBalanced ps) :
    BalancedAnswer (arrayCreation a ps) := by
  have hdims : ∀ k, (Fragment.ofText (Text.copies k "[]")).Balanced := by
    intro k
    induction k with
    | zero => exact .empty
    | succ k ih =>
      rw [Text.copies_succ, Fragment.ofText_append]
      exact ih.append (.text fun _ => rfl)
  have hsizes : (Fragment.join "" ((notOfKind (.expression .arrayInitializer) ps).map fun p =>
      ("[" : Fragment) ++ p.body ++ ("]" : Fragment))).Balanced := by
    apply Fragment.Balanced.join (.plain rfl)
    intro f hf
    obtain ⟨p, hp, rfl⟩ := List.mem_map.1 hf
    exact .enclosed (.text fun _ => rfl) (hps.filter _ p hp) (.text fun _ => rfl)
  have htype : (Fragment.ofText ("new " ++ textAt a Key.type)).Balanced := by
    rw [Fragment.ofText_append]
    exact .append (.plain rfl) (ha.balanced_textAt _)
  have hsized := (htype.append hsizes).append (hdims (a.count Key.extraDims))
  unfold arrayCreation Text.repeated
  split
  · rw [lift_ok_bind]
    dsimp only
    split
    · rename_i init hinit
      exact .pure ((hsized.append (.plain rfl)).append
        (hps.filter _ init (List.mem_of_getLast? hinit)))
    · exact .pure hsized
  · -- Without room for the brackets there is no text.
    rintro f ⟨⟩

theorem balanced_unary (ha : a.Nested) {operand : Fragment} (h : operand.Balanced) :
    (unary a operand).Balanced := by
  have hoperator := ha.balanced_textAt Key.operator
  unfold unary
  simp only [Fragment.ofText_append]
  exact .ite (h.append hoperator)
    (.ite ((hoperator.append (.plain rfl)).append h) (hoperator.append h))

theorem balanced_lambda (hps : Part.AllBalanced ps) : BalancedAnswer (lambda ps) := by
  -- The body is looked for among at most one part.
  have hlast : Part.AllBalanced (ps.getLast?.toList.filter (·.kind ≠ .parameter)) := by
    intro p hp
    have hmem := Option.mem_toList.1 (List.mem_of_mem_filter hp)
    exact hps p (List.mem_of_getLast? hmem)
  have hparams := hps.filter (·.kind = .parameter)
  refine .required fun body hbody => ?_
  have hvalue := hlast body hbody
  have hmany : ∀ f : Fragment, f.Balanced →
      (("(" : Fragment) ++ f ++ (") -> " : Fragment) ++ body.body).Balanced := by
    intro f hf
    exact .append (.enclosed (.text fun _ => rfl) hf (.text fun _ => rfl)) hvalue
  split
  · rename_i p hp
    have hbare := hparams p (by rw [show ps.filter (·.kind = .parameter) = [p] from hp]; simp)
    exact .ite (.pure ((hbare.append (.plain rfl)).append hvalue)) (.pure (hmany _ hbare))
  · exact .pure (hmany _ (balanced_list _ rfl hparams))

theorem balanced_expression (kind : ExpressionKind) (ha : a.Nested) (hps : Part.AllBalanced ps) :
    BalancedAnswer (expression kind a ps) := by
  have hname := ha.balanced_textAt Key.name
  have htype := ha.balanced_textAt Key.type
  cases kind with
  | name => exact .pure hname
  | literal => exact .pure (balanced_literal ha)
  | this => exact .pure (balanced_selfReference rfl ha)
  | super => exact .pure (balanced_selfReference rfl ha)
  | fieldAccess =>
    refine .required fun scope hscope => .pure ?_
    rw [Fragment.ofText_append]
    exact (hps scope hscope).append (.append (.plain rfl) hname)
  | methodCall =>
    refine .ite (.required fun scope hscope => .pure ?_) (.pure ?_)
    · simp only [Fragment.ofText_append]
      have hdotted := Fragment.Balanced.append (.plain (s := ".") rfl) hname
      have hopened := (hps scope hscope).opens (hdotted.opens (.text (s := "(") fun _ => rfl))
      exact (hopened.append (balanced_list _ rfl (hps.drop 1))).close (.text fun _ => rfl)
    · rw [Fragment.ofText_append]
      have hopened := hname.opens (.text (s := "(") fun _ => rfl)
      exact (hopened.append (balanced_list _ rfl hps)).close (.text fun _ => rfl)
  | objectCreation =>
    refine .pure ?_
    simp only [Fragment.ofText_append]
    have hnew := Fragment.Balanced.append (.plain (s := "new ") rfl) htype
    have hopened := hnew.opens (.text (s := "(") fun _ => rfl)
    exact (hopened.append (balanced_list _ rfl hps)).close (.text fun _ => rfl)
  | arrayCreation => exact balanced_arrayCreation ha hps
  | arrayAccess =>
    refine .required fun array harray => .required fun index hindex => .pure ?_
    have hopened := (hps array harray).opens (.text (s := "[") fun _ => rfl)
    exact (hopened.append (hps index hindex)).close (.text fun _ => rfl)
  | arrayInitializer =>
    exact .pure (.enclosed (.text fun _ => rfl) (balanced_list _ rfl hps) (.text fun _ => rfl))
  | unary => exact .required fun p hp => .pure (balanced_unary ha (hps p hp))
  | binary =>
    refine .required fun left hleft => .required fun right hright => .pure ?_
    simp only [Fragment.ofText_append]
    have hoperator := ha.balanced_textAt Key.operator
    have hspaced := Fragment.Balanced.append (.append (.plain (s := " ") rfl) hoperator)
      (.plain (s := " ") rfl)
    exact ((hps left hleft).append hspaced).append (hps right hright)
  | assign =>
    refine .required fun target htarget => .required fun value hvalue => .pure ?_
    simp only [Fragment.ofText_append]
    have hoperator := ha.balanced_getD Key.operator "=" rfl
    have hspaced := Fragment.Balanced.append (.append (.plain (s := " ") rfl) hoperator)
      (.plain (s := " ") rfl)
    exact ((hps target htarget).append hspaced).append (hps value hvalue)
  | conditional =>
    refine .required fun c hc => .required fun yes hyes => .required fun no hno => .pure ?_
    exact .append (.append (.append (.append (hps c hc) (.plain rfl)) (hps yes hyes)) (.plain rfl))
      (hps no hno)
  | cast =>
    refine .required fun operand hoperand => .pure ?_
    simp only [Fragment.ofText_append]
    exact .append (.enclosed (.text fun _ => rfl) htype (.text fun _ => rfl)) (hps operand hoperand)
  | instanceOf =>
    refine .required fun operand hoperand => .pure ?_
    rw [Fragment.ofText_append]
    exact (hps operand hoperand).append (.append (.plain rfl) htype)
  | enclosed =>
    refine .required fun inner hinner => .pure ?_
    exact .enclosed (.text fun _ => rfl) (hps inner hinner) (.text fun _ => rfl)
  | lambda => exact balanced_lambda hps
  | methodReference =>
    refine .required fun scope hscope => .pure ?_
    rw [Fragment.ofText_append]
    exact (hps scope hscope).append (.append (.plain rfl) hname)
  | annotationUse =>
    have hat : (Fragment.ofText ("@" ++ textAt a Key.name)).Balanced := by
      rw [Fragment.ofText_append]
      exact .append (.plain rfl) hname
    refine .ite (.pure hat) (.pure ?_)
    rw [Fragment.ofText_append]
    have hopened := hat.opens (.text (s := "(") fun _ => rfl)
    exact (hopened.append (balanced_list _ rfl hps)).close (.text fun _ => rfl)
  | classLiteral =>
    refine .pure ?_
    rw [Fragment.ofText_append]
    exact htype.append (.plain rfl)

/-! ## Section 6: Comments and all kinds -/

/-- Trimming the lines of a comment keeps its brackets. -/
theorem balanced_delimited {opening content closing : String}
    (hopening : opening.toList.filter isBracket = [])
    (hclosing : closing.toList.filter isBracket = []) (hcontent : IsNested content) :
    (Fragment.ofText (delimited opening content closing)).Balanced := by
  have hlines : ∀ ls : List (List Char),
      (String.join (ls.map fun l => "\n " ++ String.ofList (Text.trim l))).toList.filter isBracket =
        ls.flatMap (·.filter isBracket) := by
    intro ls
    induction ls with
    | nil => rfl
    | cons l ls ih =>
      rw [List.map_cons, String.join_cons, String.toList_append, List.filter_append, ih,
        String.toList_append, List.filter_append, String.toList_ofList (l := Text.trim l),
        filter_trim, List.flatMap_cons]
      rfl
  have hbrackets : (delimited opening content closing).toList.filter isBracket =
      content.toList.filter isBracket := by
    rw [← filter_pieces '\n' rfl content.toList, delimited]
    cases hp : Text.pieces '\n' content.toList with
    | nil => exact absurd hp (Text.pieces_ne_nil _ _)
    | cons first rest =>
      simp only [String.toList_append, List.filter_append, String.toList_ofList, hopening, hclosing,
        hlines, filter_trimEnd, List.flatMap_cons, List.nil_append, List.append_nil]
  apply Fragment.balanced_ofText_iff.2
  rw [IsNested, hbrackets]
  exact hcontent

theorem balanced_comment (kind : CommentKind) (ha : a.Nested) : (comment kind a).Balanced := by
  have hcontent : IsNested (textAt a Key.content) :=
    Fragment.balanced_ofText_iff.1 (ha.balanced_textAt _)
  cases kind with
  | line =>
    unfold comment
    dsimp only
    rw [Fragment.ofText_append]
    refine .append (.plain rfl) (Fragment.balanced_ofText_iff.2 ?_)
    rw [IsNested, String.toList_ofList, filter_trimEnd]
    exact hcontent
  | block => exact balanced_delimited rfl rfl hcontent
  | javadoc => exact balanced_delimited rfl rfl hcontent

/-- From balanced parts every template makes a balanced text. -/
theorem balanced_node (kind : Kind) (ha : a.Nested) (hps : Part.AllBalanced ps) :
    BalancedAnswer (node kind a ps) := by
  cases kind with
  | compilationUnit => exact .pure (balanced_items hps)
  | packageDecl => exact .pure (balanced_packageDecl ha hps)
  | importDecl => exact .pure (balanced_importDecl ha)
  | type k => exact .pure (balanced_typeDecl k ha hps)
  | member k => exact balanced_member k ha hps
  | parameter => exact .pure (balanced_parameter ha hps)
  | variableDeclarator => exact .pure (balanced_variableDeclarator ha hps)
  | typeParameter => exact .pure (balanced_typeParameter ha hps)
  | catchClause => exact balanced_catchClause hps
  | switchEntry => exact .pure (balanced_switchEntry hps)
  | statement k => exact balanced_statement k ha hps
  | expression k => exact balanced_expression k ha hps
  | comment k => exact .pure (balanced_comment k ha)

end Template

/-! ## Section 7: Main statement -/

namespace Printer

/-- A node is balanced if the texts among the attributes below it are nested. -/
theorem balanced_fragment {n : Cursor} {f : Fragment}
    (nested : ∀ m, n.Contains m → m.attributes.Nested) (h : fragment n = .ok f) :
    f.Balanced := by
  induction n using Cursor.children_induction generalizing f with
  | step n ih =>
    obtain ⟨bodies, hbodies, hnode⟩ := of_fragment_eq_ok h
    apply Template.balanced_node n.kind (nested n .refl) _ f hnode
    intro p hp
    obtain ⟨c, g, hc, hg, rfl⟩ := exists_of_mem_toParts hbodies hp
    apply ih c hc _ hg
    intro m hm
    exact nested m (.head hc hm)

/-- Printed text is properly nested.

    Whatever is printed of a tree, with lines ended by a text without brackets,
    is a nested word over the three pairs of brackets, provided that every text
    among the attributes in the subtree is one. -/
theorem print_isNested {r : Cursor} {layout : Layout} {out : String}
    (printed : print layout r = .ok out)
    (plain : ∀ c ∈ layout.lineTerminator.toList, isBracket c = false)
    (nested : ∀ m, r.Contains m → ∀ key s, m.attributes.get? key = some (.text s) → IsNested s) :
    IsNested out := by
  obtain ⟨f, hfragment, rfl⟩ := of_print_eq_ok printed
  have hplain : layout.lineTerminator.toList.filter isBracket = [] := by
    rw [List.filter_eq_nil_iff]
    intro c hc
    simp [plain c hc]
  exact (balanced_fragment nested hfragment).isNested_write hplain

end Printer

/-- `class A { int[] xs = {}; }` -/
def Builder.arrayField : Builder :=
  (((new.add 0 (.type .class) (Attributes.empty.insert Key.name (.text "A"))).add 1 (.member .field)
    (Attributes.empty.insert Key.type (.text "int[]"))).add 2 .variableDeclarator
      (Attributes.empty.insert Key.name (.text "xs"))).add 3 (.expression .arrayInitializer) .empty

/-- The tree of `Builder.arrayField`. -/
def Tree.arrayField : Tree := ⟨Builder.arrayField.arena, Builder.arrayField.ordered, by decide⟩

theorem Tree.built_arrayField : arrayField.Built := by
  have hreach : Builder.arrayField.Reachable := by
    iterate 4 refine Builder.Reachable.add ?_ (by decide) _ _
    exact .start _ _
  exact ⟨Builder.arrayField, hreach, Builder.finish_eq_ok_iff.2 ⟨by decide, rfl⟩⟩

/-- A node of `Tree.arrayField`. -/
def Cursor.arrayField (i : Fin 5) : Cursor := ⟨Tree.arrayField, i, i.isLt⟩

/-- Brackets in the attributes and brackets of the templates. -/
theorem Printer.print_isNested_arrayField :
    Tree.arrayField.Built ∧
      print {} Tree.arrayField.root =
        .ok "class A \x7b\n\n  int[] xs = \x7b\x7d;\n\x7d\n" ∧
      IsNested "class A \x7b\n\n  int[] xs = \x7b\x7d;\n\x7d\n" := by
  have hprint : print {} (Cursor.arrayField 0) =
      .ok "class A \x7b\n\n  int[] xs = \x7b\x7d;\n\x7d\n" := by
    have hunit : (Cursor.arrayField 0).children = [Cursor.arrayField 1] := rfl
    have hclass : (Cursor.arrayField 1).children = [Cursor.arrayField 2] := rfl
    have hfield : (Cursor.arrayField 2).children = [Cursor.arrayField 3] := rfl
    have hvariable : (Cursor.arrayField 3).children = [Cursor.arrayField 4] := rfl
    have hvalue : (Cursor.arrayField 4).children = [] := rfl
    rw [print_eq_write (by decide), fragment, Cursor.toDocument_of_children hunit,
      List.map_singleton,
      Cursor.toDocument_of_children hclass, List.map_singleton,
      Cursor.toDocument_of_children hfield, List.map_singleton,
      Cursor.toDocument_of_children hvariable, List.map_singleton,
      Cursor.toDocument_of_children hvalue]
    rfl
  have hnested : ∀ i : Fin 5, (Cursor.arrayField i).attributes.Nested := by
    intro i
    apply Attributes.nested_of_entries
    revert i
    decide
  have hplain : ∀ c ∈ "\n".toList, isBracket c = false := by
    intro c hc
    obtain rfl := List.mem_singleton.1 hc
    rfl
  refine ⟨Tree.built_arrayField, hprint, print_isNested hprint hplain ?_⟩
  intro m hm
  obtain ⟨t, i, hi⟩ := m
  obtain rfl : t = Tree.arrayField := hm.tree_eq
  exact hnested ⟨i, hi⟩

end JavaTree
