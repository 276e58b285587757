import JavaTree.Proofs.Print.Fragment
import JavaTree.Proofs.Print.Structural
import JavaTree.Proofs.Tree.Links

/-! # Every `else` stays with its own `if`

    The Java grammar gives an `else` to the nearest `if` that can take it, and
    so asks for a statement without short `if` in front of it.  The printer
    keeps to that by braces, which it decides on by a look ahead on the tree,
    while the texts of the branches are already there.

    `Written` is a statement as it is printed, with the braces that the
    printer added; its text is `Written.text`.  `Cursor.PrintedAs` ties a
    node to the way it is printed.  It does not say when there are braces: that
    the text has them or not decides it, for the two texts differ
    (`Written.text_braced_ne`).  `Written.NoShortIf` is the rule of the
    grammar.

    The main statement is `Cursor.else_stays_with_if`. -/

namespace JavaTree

/-! ## Section 1: Printed statements -/

/-- A statement as it is printed, as far as its end can be an `if`. -/
inductive Written where
  /-- A block of the tree. -/
  | block (text : Fragment)
  /-- A statement that does not end in another one, or only in a block. -/
  | other (text : Fragment)
  /-- A statement in braces that the printer added. -/
  | braced (inner : Written)
  /-- A loop that ends in its body. -/
  | loop (opening : String) (control : Fragment) (body : Written)
  /-- A statement behind a label. -/
  | labeled (label : String) (body : Written)
  /-- An `if` without `else`. -/
  | ifThen (condition : Fragment) (yes : Written)
  /-- An `if` with `else`. -/
  | ifElse (condition : Fragment) (yes no : Written)

namespace Written

/-- Whether the statement opens with a brace, which stays on the line of a
    header. -/
def isBraced : Written → Bool
  | .block _ | .braced _ => true
  | _ => false

/-- Whether the statement is an `if`, which stays on the line of an `else`. -/
def isIf : Written → Bool
  | .ifThen _ _ | .ifElse _ _ _ => true
  | _ => false

/-- An opening, what it controls, and the closing parenthesis. -/
def header (opening : String) (control : Fragment) : Fragment :=
  (opening : Fragment) ++ control ++ (")" : Fragment)

/-- A body behind its header, on the same line or below it. -/
def place (header body : Fragment) (sameLine : Bool) : Fragment :=
  if sameLine then header ++ (" " : Fragment) ++ body else header.nest body

/-- An `else` behind a then-branch. -/
def closeThen (upper : Fragment) (sameLine : Bool) : Fragment :=
  upper ++ ((if sameLine then " else" else "\nelse" : String) : Fragment)

/-- The text of a statement. -/
def text : Written → Fragment
  | .block text => text
  | .other text => text
  | .braced inner => Template.braced inner.text
  | .loop opening control body => place (header opening control) body.text body.isBraced
  | .labeled label body => (label ++ ": " : String) ++ body.text
  | .ifThen condition yes => place (header "if (" condition) yes.text yes.isBraced
  | .ifElse condition yes no =>
    place (closeThen (place (header "if (" condition) yes.text yes.isBraced) yes.isBraced)
      no.text (no.isBraced || no.isIf)

/-- A statement that can stand in front of an `else`: none of the `if`s that it
    ends in is without `else`. -/
inductive NoShortIf : Written → Prop where
  | block (text : Fragment) : NoShortIf (.block text)
  | other (text : Fragment) : NoShortIf (.other text)
  | braced (inner : Written) : NoShortIf (.braced inner)
  | loop {opening : String} {control : Fragment} {body : Written} (end_ok : NoShortIf body) :
      NoShortIf (.loop opening control body)
  | labeled {label : String} {body : Written} (end_ok : NoShortIf body) :
      NoShortIf (.labeled label body)
  | ifElse {condition : Fragment} {yes no : Written} (yes_ok : NoShortIf yes)
      (no_ok : NoShortIf no) : NoShortIf (.ifElse condition yes no)

theorem noShortIf_loop_iff {opening : String} {control : Fragment} {body : Written} :
    (loop opening control body).NoShortIf ↔ body.NoShortIf := by
  refine ⟨?_, .loop⟩
  intro h
  cases h
  assumption

theorem noShortIf_labeled_iff {label : String} {body : Written} :
    (labeled label body).NoShortIf ↔ body.NoShortIf := by
  refine ⟨?_, .labeled⟩
  intro h
  cases h
  assumption

/-- An `if` with `else` can stand in front of an `else` exactly if its own
    else-branch can, once its then-branch does. -/
theorem noShortIf_ifElse_iff {condition : Fragment} {yes no : Written} (hyes : yes.NoShortIf) :
    (ifElse condition yes no).NoShortIf ↔ no.NoShortIf := by
  refine ⟨?_, .ifElse hyes⟩
  intro h
  cases h
  assumption

/-- Every `else` in the statement has a then-branch in front of it that cannot
    take it, and braces were added only where the branch could. -/
def KeepsElses : Written → Prop
  | .block _ | .other _ => True
  | .braced inner => ¬inner.NoShortIf ∧ inner.KeepsElses
  | .loop _ _ body | .labeled _ body | .ifThen _ body => body.KeepsElses
  | .ifElse _ yes no => yes.NoShortIf ∧ yes.KeepsElses ∧ no.KeepsElses

end Written

/-- What a loop that ends in its body opens with. -/
def StatementKind.loopOpening? : StatementKind → Option String
  | .for | .forEach => some "for ("
  | .while => some "while ("
  | _ => none

theorem StatementKind.of_loopOpening?_eq_some {k : StatementKind} {opening : String}
    (h : k.loopOpening? = some opening) : k = .for ∨ k = .forEach ∨ k = .while := by
  cases k <;> simp [loopOpening?] at h ⊢

theorem Kind.of_endsInBody {k : Kind} (h : k.endsInBody = true) :
    k = .statement .conditional ∨ k = .statement .for ∨ k = .statement .forEach ∨
      k = .statement .while ∨ k = .statement .labeled := by
  unfold endsInBody at h
  split at h <;> simp at h ⊢

/-- The node is printed in the given way: its source text is the text of the
    statement, and so are those of the branches and bodies that the statement
    ends in.  A then-branch in front of an `else` may be printed with braces or
    without. -/
inductive Cursor.PrintedAs : Cursor → Written → Prop where
  | block {n : Cursor} {text : Fragment} (kind : n.kind.isBlock = true)
      (printed : Printer.fragment n = .ok text) : PrintedAs n (.block text)
  | other {n : Cursor} {text : Fragment} (kind : n.kind.isBlock = false)
      (whole : n.kind.endsInBody = false) (printed : Printer.fragment n = .ok text) :
      PrintedAs n (.other text)
  | loop {n m : Cursor} {k : StatementKind} {opening : String} {control : Fragment}
      {body : Written} (kind : n.kind = .statement k) (opens : k.loopOpening? = some opening)
      (last : n.children.getLast? = some m) (inner : PrintedAs m body)
      (printed : Printer.fragment n = .ok (Written.loop opening control body).text) :
      PrintedAs n (.loop opening control body)
  | labeled {n m : Cursor} {label : String} {body : Written}
      (kind : n.kind = .statement .labeled) (children : n.children = [m])
      (inner : PrintedAs m body)
      (printed : Printer.fragment n = .ok (Written.labeled label body).text) :
      PrintedAs n (.labeled label body)
  | ifThen {n c m : Cursor} {condition : Fragment} {yes : Written}
      (kind : n.kind = .statement .conditional) (children : n.children = [c, m])
      (test : Printer.fragment c = .ok condition) (then_ : PrintedAs m yes)
      (printed : Printer.fragment n = .ok (Written.ifThen condition yes).text) :
      PrintedAs n (.ifThen condition yes)
  | ifElse {n c m e : Cursor} {condition : Fragment} {yes no : Written}
      (kind : n.kind = .statement .conditional) (children : n.children = [c, m, e])
      (test : Printer.fragment c = .ok condition) (then_ : PrintedAs m yes)
      (else_ : PrintedAs e no)
      (printed : Printer.fragment n = .ok (Written.ifElse condition yes no).text) :
      PrintedAs n (.ifElse condition yes no)
  | ifElseBraced {n c m e : Cursor} {condition : Fragment} {yes no : Written}
      (kind : n.kind = .statement .conditional) (children : n.children = [c, m, e])
      (test : Printer.fragment c = .ok condition) (then_ : PrintedAs m yes)
      (else_ : PrintedAs e no)
      (printed : Printer.fragment n = .ok (Written.ifElse condition (.braced yes) no).text) :
      PrintedAs n (.ifElse condition (.braced yes) no)

namespace Cursor.PrintedAs

variable {n : Cursor} {w : Written}

theorem fragment_eq (h : n.PrintedAs w) : Printer.fragment n = .ok w.text := by
  cases h <;> assumption

theorem text_eq {f : Fragment} (h : n.PrintedAs w) (printed : Printer.fragment n = .ok f) :
    w.text = f := Except.ok.inj (h.fragment_eq.symm.trans printed)

theorem isBraced_eq (h : n.PrintedAs w) : w.isBraced = n.kind.isBlock := by
  cases h with
  | block kind _ => exact kind.symm
  | other kind _ _ => exact kind.symm
  | loop kind opens =>
    rw [kind]
    obtain rfl | rfl | rfl := StatementKind.of_loopOpening?_eq_some opens <;> rfl
  | labeled kind | ifThen kind | ifElse kind | ifElseBraced kind =>
    rw [kind]
    rfl

theorem isIf_eq (h : n.PrintedAs w) : w.isIf = decide (n.kind = .statement .conditional) := by
  cases h with
  | block kind _ =>
    have hkind : n.kind = .statement .block := by simpa [Kind.isBlock] using kind
    rw [hkind]
    rfl
  | other _ whole _ =>
    have hkind : n.kind ≠ .statement .conditional := by
      intro hkind
      rw [hkind] at whole
      cases whole
    rw [decide_eq_false hkind]
    rfl
  | loop kind opens =>
    rw [kind]
    obtain rfl | rfl | rfl := StatementKind.of_loopOpening?_eq_some opens <;> rfl
  | labeled kind | ifThen kind | ifElse kind | ifElseBraced kind =>
    rw [kind]
    rfl

end Cursor.PrintedAs

/-! ## Section 2: Added braces show -/

namespace Fragment

/-- The second fragment goes on on the last line of the first one. -/
def GoesOn (f k : Fragment) : Prop := ∃ g : Fragment, g.head ≠ "" ∧ k = f ++ g

/-- The second fragment has the lines of the first one and goes on below. -/
def GoesBelow (f k : Fragment) : Prop := ∃ ms : List Line, ms ≠ [] ∧ k = ⟨f.head, f.tail ++ ms⟩

theorem head_append_ne {g : Fragment} (h : g.head ≠ "") (k : Fragment) : (g ++ k).head ≠ "" := by
  by_cases ht : g.tail = []
  · rw [append_of_tail_nil ht]
    simp [h]
  · rw [append_of_tail_ne_nil ht]
    exact h

theorem GoesOn.append {f k : Fragment} (h : f.GoesOn k) (l : Fragment) : f.GoesOn (k ++ l) := by
  obtain ⟨g, hg, rfl⟩ := h
  exact ⟨g ++ l, head_append_ne hg l, append_assoc f g l⟩

theorem GoesOn.nest {f k : Fragment} (h : f.GoesOn k) (body : Fragment) :
    f.GoesOn (k.nest body) := by
  obtain ⟨g, hg, rfl⟩ := h
  exact ⟨g.nest body, hg, append_nest f g body⟩

theorem GoesBelow.append {f k : Fragment} (h : f.GoesBelow k) (l : Fragment) :
    f.GoesBelow (k ++ l) := by
  obtain ⟨ms, hms, rfl⟩ := h
  refine ⟨continueWith l ms, continueWith_ne_nil l hms, ?_⟩
  rw [append_of_tail_ne_nil (by simp [hms]), continueWith_append l f.tail hms]

theorem GoesBelow.nest {f k : Fragment} (h : f.GoesBelow k) (body : Fragment) :
    f.GoesBelow (k.nest body) := by
  obtain ⟨ms, hms, rfl⟩ := h
  refine ⟨ms ++ body.lines.map Line.deeper, by simp [hms], ?_⟩
  rw [Fragment.nest, List.append_assoc]

theorem goesBelow_nest (f body : Fragment) : f.GoesBelow (f.nest body) :=
  ⟨body.lines.map Line.deeper, by simp [lines], rfl⟩

theorem GoesOn.ne_of_goesBelow {f k l : Fragment} (hk : f.GoesOn k) (hl : f.GoesBelow l) :
    k ≠ l := by
  obtain ⟨g, hg, rfl⟩ := hk
  obtain ⟨ms, -, rfl⟩ := hl
  exact append_ne_lower hg ms

end Fragment

namespace Written

theorem goesOn_place {f k : Fragment} (h : f.GoesOn k) (body : Fragment) (sameLine : Bool) :
    f.GoesOn (place k body sameLine) := by
  cases sameLine with
  | true => exact (h.append _).append body
  | false => exact h.nest body

theorem goesBelow_place {f k : Fragment} (h : f.GoesBelow k) (body : Fragment) (sameLine : Bool) :
    f.GoesBelow (place k body sameLine) := by
  cases sameLine with
  | true => exact (h.append _).append body
  | false => exact h.nest body

theorem length_tail_place (header body : Fragment) (sameLine : Bool) :
    (place header body sameLine).tail.length =
      header.tail.length + body.tail.length + (if sameLine then 0 else 1) := by
  cases sameLine with
  | true =>
    have hspace : (Fragment.ofText " ").tail.length = 0 := by decide
    simp [place, hspace]
  | false => simp [place]

/-- Braces take lines of their own. -/
theorem length_tail_braced (f : Fragment) : f.tail.length < (Template.braced f).tail.length := by
  unfold Template.braced
  split
  · rename_i hempty
    have htail : f.tail = [] := by
      simpa [Fragment.isEmpty] using (Bool.and_eq_true_iff.1 hempty).2
    rw [htail]
    decide
  · simp only [Fragment.length_tail_append, Fragment.length_tail_nest]
    omega

/-- A then-branch with added braces has another text than one without. -/
theorem text_braced_ne (condition : Fragment) (yes no : Written) :
    (ifElse condition (.braced yes) no).text ≠ (ifElse condition yes no).text := by
  simp only [text]
  cases hyes : yes.isBraced with
  | true =>
    -- Both branches are on the line of the header, but one has more lines.
    intro heq
    have hlength := congrArg (fun f : Fragment => f.tail.length) heq
    have hmore := length_tail_braced yes.text
    simp only [length_tail_place, closeThen, Fragment.length_tail_append, isBraced] at hlength
    omega
  | false =>
    -- The one branch starts on the line of the header, the other below it.
    have hon : (header "if (" condition).GoesOn
        (place (header "if (" condition) (Template.braced yes.text) true) := by
      refine ⟨(" " : Fragment) ++ Template.braced yes.text, ?_, ?_⟩
      · exact Fragment.head_append_ne (by decide) _
      · exact Fragment.append_assoc ..
    have hbelow : (header "if (" condition).GoesBelow
        (place (header "if (" condition) yes.text false) := Fragment.goesBelow_nest ..
    exact (goesOn_place (hon.append _) no.text _).ne_of_goesBelow
      (goesBelow_place (hbelow.append _) no.text _)

end Written

/-! ## Section 3: The look ahead -/

namespace Cursor

/-- A node that does not end in a body does not end in an open `if`. -/
theorem endsInOpenIf_of_whole {n : Cursor} (h : n.kind.endsInBody = false) :
    n.endsInOpenIf = false := by
  have hkind : n.kind ≠ .statement .conditional := by
    intro hkind
    rw [hkind] at h
    cases h
  rw [endsInOpenIf, if_neg (by simp [hkind]), if_neg (by simp [h])]

theorem endsInOpenIf_of_isBlock {n : Cursor} (h : n.kind.isBlock = true) :
    n.endsInOpenIf = false := by
  have hkind : n.kind = .statement .block := by simpa [Kind.isBlock] using h
  apply endsInOpenIf_of_whole
  rw [hkind]
  rfl

/-- A node that ends in a body ends in an open `if` exactly if the body does. -/
theorem endsInOpenIf_of_last {n m : Cursor} (hbody : n.kind.endsInBody = true)
    (hopen : n.kind = .statement .conditional → 3 ≤ n.childCount)
    (hlast : n.children.getLast? = some m) : n.endsInOpenIf = m.endsInOpenIf := by
  have hshort :
      ¬(decide (n.kind = .statement .conditional) && decide (n.childCount < 3)) = true := by
    simpa using hopen
  rw [endsInOpenIf, if_neg hshort, if_pos hbody]
  split
  · rename_i m' hm'
    obtain rfl : m = m' := Option.some.inj (hlast.symm.trans hm')
    cases hblock : m.kind.isBlock with
    | true => rw [endsInOpenIf_of_isBlock hblock]; rfl
    | false => rfl
  · rename_i hnone
    rw [hlast] at hnone
    cases hnone

theorem endsInOpenIf_ifElse {n c m e : Cursor} (kind : n.kind = .statement .conditional)
    (children : n.children = [c, m, e]) : n.endsInOpenIf = e.endsInOpenIf := by
  apply endsInOpenIf_of_last
  · rw [kind]
    rfl
  · intro _
    rw [← length_children, children]
    exact Nat.le_refl 3
  · rw [children]
    rfl

/-! ## Section 4: Braces follow the look ahead -/

theorem controlled_eq_place (header : Fragment) {m : Cursor} {w : Written} (h : m.PrintedAs w) :
    Template.controlled header (m.toPart w.text) = Written.place header w.text w.isBraced := by
  rw [h.isBraced_eq]
  rfl

theorem conditional_eq_text (c : Cursor) (condition : Fragment) {m e : Cursor} {yes no : Written}
    (then_ : m.PrintedAs yes) (else_ : e.PrintedAs no) :
    Template.conditional (c.toPart condition) (m.toPart yes.text) (some (e.toPart no.text)) =
      (Written.ifElse condition (if m.endsInOpenIf then .braced yes else yes) no).text := by
  -- Behind the `else` another `if` stays on the line, as a block does.
  have helse : ∀ upper : Fragment,
      (if (e.toPart no.text).kind = .statement .conditional then
        upper ++ (" " : Fragment) ++ (e.toPart no.text).body
      else Template.controlled upper (e.toPart no.text)) =
        Written.place upper no.text (no.isBraced || no.isIf) := by
    intro upper
    show (if e.kind = .statement .conditional then upper ++ (" " : Fragment) ++ no.text else _) = _
    rw [controlled_eq_place upper else_, else_.isIf_eq]
    by_cases hkind : e.kind = .statement .conditional
    · simp [hkind, Written.place]
    · simp [hkind]
  simp only [Template.conditional]
  rw [helse, Written.text]
  show Written.place
    ((if !m.kind.isBlock && m.endsInOpenIf then
        Written.header "if (" condition ++ (" " : Fragment) ++ Template.braced yes.text
      else Template.controlled (Written.header "if (" condition) (m.toPart yes.text)) ++
      ((if m.kind.isBlock || (!m.kind.isBlock && m.endsInOpenIf) then " else" else "\nelse" :
        String) : Fragment)) no.text _ = _
  rw [controlled_eq_place _ then_, ← then_.isBraced_eq]
  cases hopen : m.endsInOpenIf with
  | true =>
    -- A block does not end in an open `if`.
    have hblock : yes.isBraced = false := by
      rw [then_.isBraced_eq, Bool.eq_false_iff]
      intro hblock
      rw [endsInOpenIf_of_isBlock hblock] at hopen
      cases hopen
    rw [hblock]
    rfl
  | false =>
    simp only [Bool.and_false, Bool.or_false]
    rfl

/-- The printer adds braces to a then-branch in front of an `else` if the look
    ahead finds an open `if` at its end. -/
theorem fragment_ifElse {n c m e : Cursor} {condition : Fragment} {yes no : Written}
    (kind : n.kind = .statement .conditional) (children : n.children = [c, m, e])
    (test : Printer.fragment c = .ok condition) (then_ : m.PrintedAs yes)
    (else_ : e.PrintedAs no) :
    Printer.fragment n = .ok (Written.ifElse condition
      (if m.endsInOpenIf then .braced yes else yes) no).text := by
  have hbodies : n.children.mapM Printer.fragment = .ok [condition, yes.text, no.text] := by
    rw [children]
    exact mapM_cons_ok test (mapM_cons_ok then_.fragment_eq (mapM_cons_ok else_.fragment_eq rfl))
  have hparts : n.toParts [condition, yes.text, no.text] =
      [c.toPart condition, m.toPart yes.text, e.toPart no.text] := by
    rw [toParts, children]
    rfl
  rw [Printer.combines_fragment.of_children hbodies, hparts, kind]
  exact congrArg Except.ok (conditional_eq_text c condition then_ else_)

/-- Whether a statement without short `if` is printed is what the look ahead
    finds out, and every `else` in it is kept. -/
theorem PrintedAs.keepsElses {n : Cursor} {w : Written} (h : n.PrintedAs w) :
    (w.NoShortIf ↔ n.endsInOpenIf = false) ∧ w.KeepsElses := by
  induction h with
  | block kind _ => exact ⟨iff_of_true (.block _) (endsInOpenIf_of_isBlock kind), trivial⟩
  | other _ whole _ => exact ⟨iff_of_true (.other _) (endsInOpenIf_of_whole whole), trivial⟩
  | @loop n m k _ _ _ kind opens last _ _ ih =>
    have hlast : n.endsInOpenIf = m.endsInOpenIf := by
      apply endsInOpenIf_of_last _ _ last
      · rw [kind]
        obtain rfl | rfl | rfl := StatementKind.of_loopOpening?_eq_some opens <;> rfl
      · intro hif
        rw [kind] at hif
        obtain rfl | rfl | rfl := StatementKind.of_loopOpening?_eq_some opens <;> cases hif
    rw [hlast, ← ih.1]
    exact ⟨Written.noShortIf_loop_iff, ih.2⟩
  | @labeled n m _ _ kind children _ _ ih =>
    have hlast : n.endsInOpenIf = m.endsInOpenIf := by
      apply endsInOpenIf_of_last
      · rw [kind]
        rfl
      · intro hif
        rw [kind] at hif
        cases hif
      · rw [children]
        rfl
    rw [hlast, ← ih.1]
    exact ⟨Written.noShortIf_labeled_iff, ih.2⟩
  | @ifThen n _ _ _ _ kind children _ _ _ ih =>
    have hopen : n.endsInOpenIf = true := by
      rw [endsInOpenIf, if_pos]
      rw [← length_children, children, kind]
      rfl
    refine ⟨iff_of_false ?_ (by rw [hopen]; simp), ih.2⟩
    intro h
    cases h
  | @ifElse n c m e condition yes no kind children test then_ else_ printed ihyes ihno =>
    have hlast : n.endsInOpenIf = e.endsInOpenIf := endsInOpenIf_ifElse kind children
    -- Had the look ahead found an open `if`, there would be braces to be seen.
    have hclosed : m.endsInOpenIf = false := by
      rw [Bool.eq_false_iff]
      intro hopen
      have hbraced := fragment_ifElse kind children test then_ else_
      rw [hopen, if_pos rfl, printed] at hbraced
      exact Written.text_braced_ne condition yes no (Except.ok.inj hbraced).symm
    have hyes := ihyes.1.2 hclosed
    refine ⟨?_, hyes, ihyes.2, ihno.2⟩
    rw [hlast, ← ihno.1]
    exact Written.noShortIf_ifElse_iff hyes
  | @ifElseBraced n c m e condition yes no kind children test then_ else_ printed ihyes ihno =>
    have hlast : n.endsInOpenIf = e.endsInOpenIf := endsInOpenIf_ifElse kind children
    have hopen : m.endsInOpenIf = true := by
      rw [← Bool.not_eq_false]
      intro hclosed
      have hplain := fragment_ifElse kind children test then_ else_
      rw [hclosed, if_neg (by simp), printed] at hplain
      exact Written.text_braced_ne condition yes no (Except.ok.inj hplain)
    have hneeded : ¬yes.NoShortIf := by
      rw [ihyes.1, hopen]
      simp
    refine ⟨?_, .braced yes, ⟨hneeded, ihyes.2⟩, ihno.2⟩
    rw [hlast, ← ihno.1]
    exact Written.noShortIf_ifElse_iff (.braced yes)

/-! ## Section 5: Every node is printed in some way -/

/-- Whether a statement that can end in an `if` has exactly the children that
    its kind gives a part to. -/
def isPositional (n : Cursor) : Bool :=
  match n.kind with
  | .statement .conditional => n.childCount = 2 || n.childCount = 3
  | .statement .forEach | .statement .while => n.childCount = 2
  | .statement .labeled => n.childCount = 1
  | .statement .for =>
    n.childCount = n.attributes.count Key.init + (if n.attributes.flag Key.condition then 1 else 0)
      + n.attributes.count Key.update + 1
  | _ => true

theorem node_of_children_pair {n c m : Cursor} {f : Fragment} (children : n.children = [c, m])
    (printed : Printer.fragment n = .ok f) :
    ∃ fc fm, Printer.fragment c = .ok fc ∧ Printer.fragment m = .ok fm ∧
      Template.node n.kind n.attributes [c.toPart fc, m.toPart fm] = .ok f := by
  obtain ⟨bodies, hbodies, hnode⟩ := Printer.of_fragment_eq_ok printed
  rw [toParts, children] at hnode
  rw [children] at hbodies
  obtain ⟨fc, rest, hc, hrest, rfl⟩ := mapM_cons_eq_ok hbodies
  obtain ⟨fm, none_left, hm, hnil, rfl⟩ := mapM_cons_eq_ok hrest
  cases hnil
  exact ⟨fc, fm, hc, hm, hnode⟩

theorem exists_printedAs_ifThen {n c m : Cursor} {f : Fragment} {yes : Written}
    (kind : n.kind = .statement .conditional) (children : n.children = [c, m])
    (printed : Printer.fragment n = .ok f) (then_ : m.PrintedAs yes) : ∃ w, n.PrintedAs w := by
  obtain ⟨fc, fm, hc, hm, hnode⟩ := node_of_children_pair children printed
  obtain rfl : yes.text = fm := then_.text_eq hm
  refine ⟨.ifThen fc yes, .ifThen kind children hc then_ ?_⟩
  rw [printed, ← hnode, kind]
  exact congrArg Except.ok (controlled_eq_place _ then_)

theorem exists_printedAs_ifElse {n c m e : Cursor} {f : Fragment} {yes no : Written}
    (kind : n.kind = .statement .conditional) (children : n.children = [c, m, e])
    (printed : Printer.fragment n = .ok f) (then_ : m.PrintedAs yes) (else_ : e.PrintedAs no) :
    ∃ w, n.PrintedAs w := by
  obtain ⟨bodies, hbodies, -⟩ := Printer.of_fragment_eq_ok printed
  rw [children] at hbodies
  obtain ⟨fc, rest, hc, -, -⟩ := mapM_cons_eq_ok hbodies
  have htext := fragment_ifElse kind children hc then_ else_
  cases hopen : m.endsInOpenIf with
  | true =>
    rw [hopen, if_pos rfl] at htext
    exact ⟨_, .ifElseBraced kind children hc then_ else_ htext⟩
  | false =>
    rw [hopen, if_neg (by simp)] at htext
    exact ⟨_, .ifElse kind children hc then_ else_ htext⟩

theorem exists_printedAs_while {n c m : Cursor} {f : Fragment} {body : Written}
    (kind : n.kind = .statement .while) (children : n.children = [c, m])
    (printed : Printer.fragment n = .ok f) (inner : m.PrintedAs body) : ∃ w, n.PrintedAs w := by
  obtain ⟨fc, fm, -, hm, hnode⟩ := node_of_children_pair children printed
  obtain rfl : body.text = fm := inner.text_eq hm
  refine ⟨.loop "while (" fc body, .loop kind rfl (by rw [children]; rfl) inner ?_⟩
  rw [printed, ← hnode, kind]
  exact congrArg Except.ok (controlled_eq_place _ inner)

theorem exists_printedAs_forEach {n c m : Cursor} {f : Fragment} {body : Written}
    (kind : n.kind = .statement .forEach) (children : n.children = [c, m])
    (printed : Printer.fragment n = .ok f) (inner : m.PrintedAs body) : ∃ w, n.PrintedAs w := by
  obtain ⟨fc, fm, -, hm, hnode⟩ := node_of_children_pair children printed
  obtain rfl : body.text = fm := inner.text_eq hm
  -- The declared variable belongs to what the parentheses hold.
  let variable_ : String := Template.wordAt n.attributes Key.modifiers
    ++ ((n.attributes.text? Key.type).getD "var" ++ (" "
      ++ (Template.textAt n.attributes Key.name ++ " : ")))
  refine ⟨.loop "for (" ((variable_ : Fragment) ++ fc) body,
    .loop kind rfl (by rw [children]; rfl) inner ?_⟩
  have hheader : ((("for (" ++ Template.wordAt n.attributes Key.modifiers
      ++ (n.attributes.text? Key.type).getD "var" ++ " " ++ Template.textAt n.attributes Key.name
      ++ " : " : String) : Fragment) ++ fc ++ (")" : Fragment)) =
        Written.header "for (" ((variable_ : Fragment) ++ fc) := by
    simp only [Written.header, String.append_assoc]
    rw [Fragment.ofText_append, Fragment.append_assoc (Fragment.ofText "for (")]
  rw [printed, ← hnode, kind, Written.text, ← hheader]
  exact congrArg Except.ok (controlled_eq_place _ inner)

/-- A `for` is a body below whatever its parentheses hold. -/
theorem forLoop_eq_controlled {a : Attributes} {parts : List (Part Fragment)}
    {body : Part Fragment} {f : Fragment}
    (hbody : parts[a.count Key.init + (if a.flag Key.condition then 1 else 0)
      + a.count Key.update]? = some body) (h : Template.forLoop a parts = .ok f) :
    ∃ control, f = Template.controlled (Written.header "for (" control) body := by
  have hheader : ∀ inits test updates : Fragment,
      ("for (" : Fragment) ++ inits ++ ("; " : Fragment) ++ test ++ ("; " : Fragment) ++ updates
        ++ (")" : Fragment) =
          Written.header "for (" (inits ++ ("; " : Fragment) ++ test ++ ("; " : Fragment)
            ++ updates) := by
    intro inits test updates
    simp only [Written.header, Fragment.append_assoc]
  simp only [Template.forLoop, Template.required, hbody, hheader] at h
  exact ⟨_, (Except.ok.inj h).symm⟩

theorem exists_printedAs_for {n m : Cursor} {f : Fragment} {body : Written}
    (kind : n.kind = .statement .for) (positional : n.isPositional = true)
    (last : n.children.getLast? = some m) (printed : Printer.fragment n = .ok f)
    (inner : m.PrintedAs body) : ∃ w, n.PrintedAs w := by
  obtain ⟨bodies, hbodies, hnode⟩ := Printer.of_fragment_eq_ok printed
  -- The body is at the place that the counts lead to.
  have hplace : n.children[n.attributes.count Key.init
      + (if n.attributes.flag Key.condition then 1 else 0) + n.attributes.count Key.update]? =
        some m := by
    rw [isPositional, kind] at positional
    have hcount : n.children.length - 1 = n.attributes.count Key.init
        + (if n.attributes.flag Key.condition then 1 else 0)
        + n.attributes.count Key.update := by
      rw [length_children, of_decide_eq_true positional]
      rfl
    rw [List.getLast?_eq_getElem?, hcount] at last
    exact last
  obtain ⟨fm, hm, hpart⟩ := Printer.getElem?_toParts hbodies hplace
  obtain rfl : body.text = fm := inner.text_eq hm
  rw [kind] at hnode
  obtain ⟨control, rfl⟩ := forLoop_eq_controlled hpart hnode
  refine ⟨.loop "for (" control body, .loop kind rfl last inner ?_⟩
  rw [printed, controlled_eq_place _ inner]
  rfl

theorem exists_printedAs_labeled {n m : Cursor} {f : Fragment} {body : Written}
    (kind : n.kind = .statement .labeled) (children : n.children = [m])
    (printed : Printer.fragment n = .ok f) (inner : m.PrintedAs body) : ∃ w, n.PrintedAs w := by
  obtain ⟨bodies, hbodies, hnode⟩ := Printer.of_fragment_eq_ok printed
  rw [toParts, children] at hnode
  rw [children] at hbodies
  obtain ⟨fm, none_left, hm, hnil, rfl⟩ := mapM_cons_eq_ok hbodies
  cases hnil
  obtain rfl : body.text = fm := inner.text_eq hm
  refine ⟨.labeled (Template.textAt n.attributes Key.label) body, .labeled kind children inner ?_⟩
  rw [printed, ← hnode, kind]
  rfl

/-- A node with a source text is printed in some way if its children are. -/
theorem exists_printedAs_of_children {n : Cursor} {f : Fragment}
    (positional : n.isPositional = true) (printed : Printer.fragment n = .ok f)
    (inner : ∀ m ∈ n.children, ∃ w, m.PrintedAs w) : ∃ w, n.PrintedAs w := by
  by_cases hblock : n.kind.isBlock = true
  · exact ⟨.block f, .block hblock printed⟩
  by_cases hwhole : n.kind.endsInBody = false
  · exact ⟨.other f, .other (by simpa using hblock) hwhole printed⟩
  have hcount := n.length_children
  have hpositional := positional
  unfold isPositional at positional
  rcases Kind.of_endsInBody (by simpa using hwhole) with
    hkind | hkind | hkind | hkind | hkind <;> rw [hkind] at positional
  · -- an `if`, with or without `else`
    have hchildren : n.children.length = 2 ∨ n.children.length = 3 := by
      simpa [hcount] using positional
    rcases hchildren with hlength | hlength
    · obtain ⟨c, m, hchildren⟩ := List.length_eq_two.1 hlength
      obtain ⟨yes, hyes⟩ := inner m (by simp [hchildren])
      exact exists_printedAs_ifThen hkind hchildren printed hyes
    · obtain ⟨c, m, e, hchildren⟩ := List.length_eq_three.1 hlength
      obtain ⟨yes, hyes⟩ := inner m (by simp [hchildren])
      obtain ⟨no, hno⟩ := inner e (by simp [hchildren])
      exact exists_printedAs_ifElse hkind hchildren printed hyes hno
  · -- a `for`, whose body is the last child
    have hne : n.children ≠ [] := by
      apply List.ne_nil_of_length_pos
      rw [hcount, of_decide_eq_true positional]
      exact Nat.succ_pos _
    obtain ⟨body, hbody⟩ := inner _ (List.getLast_mem hne)
    exact exists_printedAs_for hkind hpositional (List.getLast?_eq_some_getLast hne) printed hbody
  · -- a `for` over a collection
    obtain ⟨c, m, hchildren⟩ := List.length_eq_two.1 (hcount.trans (of_decide_eq_true positional))
    obtain ⟨body, hbody⟩ := inner m (by simp [hchildren])
    exact exists_printedAs_forEach hkind hchildren printed hbody
  · -- a `while`
    obtain ⟨c, m, hchildren⟩ := List.length_eq_two.1 (hcount.trans (of_decide_eq_true positional))
    obtain ⟨body, hbody⟩ := inner m (by simp [hchildren])
    exact exists_printedAs_while hkind hchildren printed hbody
  · -- a label
    obtain ⟨m, hchildren⟩ := List.length_eq_one_iff.1 (hcount.trans (of_decide_eq_true positional))
    obtain ⟨body, hbody⟩ := inner m (by simp [hchildren])
    exact exists_printedAs_labeled hkind hchildren printed hbody

/-- A node with a source text is printed in some way. -/
theorem exists_printedAs {r : Cursor} {f : Fragment}
    (positional : ∀ m, r.Contains m → m.isPositional = true)
    (printed : Printer.fragment r = .ok f) : ∃ w, r.PrintedAs w := by
  induction r using children_induction generalizing f with
  | step r ih =>
    apply exists_printedAs_of_children (positional r .refl) printed
    intro m hm
    obtain ⟨g, hg⟩ := Printer.fragment_of_mem_children printed hm
    apply ih m hm _ hg
    intro k hk
    exact positional k (.head hm hk)

/-! ## Section 6: The look ahead ends -/

/-- One round of the look ahead at a node: it has the answer, or goes on with
    the body that the node ends in. -/
def lookRound (n : Cursor) : Bool ⊕ Cursor :=
  if n.kind = .statement .conditional && n.childCount < 3 then .inl true
  else match (if n.kind.endsInBody then n.child? (n.childCount - 1) else none) with
    | some body => if body.kind.isBlock then .inl false else .inr body
    | none => .inl false

/-- The answer of the look ahead, if it has one after so many rounds. -/
def lookRounds : Nat → Cursor → Option Bool
  | 0, _ => none
  | k + 1, n =>
    match n.lookRound with
    | .inl answer => some answer
    | .inr body => body.lookRounds k

/-- A round goes down in the tree, and leaves the answer to the body. -/
theorem lookRound_spec (n : Cursor) :
    (n.lookRound = .inl n.endsInOpenIf) ∨
      ∃ m ∈ n.children, n.lookRound = .inr m ∧ n.endsInOpenIf = m.endsInOpenIf := by
  -- The round looks at the child at the last position.
  have hchild : n.child? (n.childCount - 1) = n.children.getLast? := by
    rw [child?, List.getLast?_eq_getElem?, length_children]
  by_cases hopen : (decide (n.kind = .statement .conditional) && decide (n.childCount < 3)) = true
  · left
    rw [lookRound, if_pos hopen, endsInOpenIf, if_pos hopen]
  cases hbody : n.kind.endsInBody with
  | false =>
    left
    rw [lookRound, if_neg hopen, hbody, endsInOpenIf_of_whole hbody]
    rfl
  | true =>
    rw [lookRound, if_neg hopen, hbody, if_pos rfl, hchild]
    cases hlast : n.children.getLast? with
    | none =>
      have hclosed : n.endsInOpenIf = false := by
        rw [endsInOpenIf, if_neg hopen, if_pos hbody]
        split
        · rename_i hsome
          rw [hlast] at hsome
          cases hsome
        · rfl
      left
      rw [hclosed]
    | some m =>
      have hsame : n.endsInOpenIf = m.endsInOpenIf :=
        endsInOpenIf_of_last hbody (by simpa using hopen) hlast
      cases hblock : m.kind.isBlock with
      | true =>
        left
        rw [hsame, endsInOpenIf_of_isBlock hblock]
        exact if_pos hblock
      | false =>
        right
        exact ⟨m, List.mem_of_getLast? hlast, if_neg (by simp [hblock]), hsame⟩

/-- The look ahead ends after at most as many rounds as the tree has nodes. -/
theorem lookRounds_eq (n : Cursor) {k : Nat} (h : n.rank ≤ k) :
    n.lookRounds k = some n.endsInOpenIf := by
  -- Each round goes on with a node of smaller rank.
  induction k generalizing n with
  | zero => exact absurd n.rank_pos (by omega)
  | succ k ih =>
    rw [lookRounds]
    rcases n.lookRound_spec with hanswer | ⟨m, hm, hround, hsame⟩
    · rw [hanswer]
    · have hrank := rank_lt_of_mem_children hm
      rw [hround, hsame]
      exact ih m (by omega)

/-! ## Section 7: Main statement -/

/-- Every `else` stays with its own `if`.

    In a printed subtree whose statements have the children of their kinds,
    every node is printed in some way, and however it is printed, each
    then-branch in front of an `else` is a statement without short `if`, while
    the branches with added braces would not be one without them.  The look
    ahead behind this ends on every tree. -/
theorem else_stays_with_if :
    (∀ (r : Cursor) (layout : Layout) (out : String),
      (∀ m, r.Contains m → m.isPositional = true) → Printer.print layout r = .ok out →
        (∀ w, r.PrintedAs w → w.text.write layout = out) ∧
        ∀ n, r.Contains n → (∃ w, n.PrintedAs w) ∧ ∀ w, n.PrintedAs w → w.KeepsElses) ∧
    ∀ n : Cursor, n.lookRounds n.tree.size = some n.endsInOpenIf := by
  refine ⟨?_, fun n => n.lookRounds_eq (Nat.sub_le _ _)⟩
  intro r layout out positional printed
  obtain ⟨f, hfragment, hout⟩ := Printer.of_print_eq_ok printed
  refine ⟨?_, ?_⟩
  · intro w hw
    rw [hw.text_eq hfragment]
    exact hout
  · intro n hn
    refine ⟨?_, fun w hw => hw.keepsElses.2⟩
    obtain ⟨g, hg⟩ := hn.exists_fragment hfragment
    exact exists_printedAs (fun m hm => positional m (hn.trans hm)) hg

end Cursor

/-- `if (a) while (b) if (c) ; else ;`, with the `else` for the first `if`. -/
def Builder.openLoop : Builder :=
  let name (s : String) : Attributes := Attributes.empty.insert Key.name (.text s)
  ((((((((((new.add 0 (.type .class) .empty).add 1 (.member .initializer) .empty).add 2
    (.statement .block) .empty).add 3 (.statement .conditional) .empty).add 4 (.expression .name)
      (name "a")).add 4 (.statement .while) .empty).add 4 (.statement .empty) .empty).add 6
        (.expression .name) (name "b")).add 6 (.statement .conditional) .empty).add 9
          (.expression .name) (name "c")).add 9 (.statement .empty) .empty

/-- The tree of `Builder.openLoop`. -/
def Tree.openLoop : Tree := ⟨Builder.openLoop.arena, Builder.openLoop.ordered, by decide⟩

theorem Tree.built_openLoop : openLoop.Built := by
  have hreach : Builder.openLoop.Reachable := by
    iterate 11 refine Builder.Reachable.add ?_ (by decide) _ _
    exact .start _ _
  exact ⟨Builder.openLoop, hreach, Builder.finish_eq_ok_iff.2 ⟨by decide, rfl⟩⟩

/-- A node of `Tree.openLoop`. -/
def Cursor.openLoop (i : Fin 12) : Cursor := ⟨Tree.openLoop, i, i.isLt⟩

/-- The `while` gets braces, and so the `else` is not for the `if` in it. -/
theorem Cursor.else_stays_with_if_openLoop :
    Tree.openLoop.Built ∧
      Printer.print {} (openLoop 4) =
        .ok "if (a) \x7b\n  while (b)\n    if (c)\n      ;\n\x7d else\n  ;\n" ∧
      ∃ w, (openLoop 4).PrintedAs w ∧ w.KeepsElses := by
  have hprint : Printer.print {} (openLoop 4) =
      .ok "if (a) \x7b\n  while (b)\n    if (c)\n      ;\n\x7d else\n  ;\n" := by
    have hif : (openLoop 4).children = [openLoop 5, openLoop 6, openLoop 7] := rfl
    have hwhile : (openLoop 6).children = [openLoop 8, openLoop 9] := rfl
    have hinner : (openLoop 9).children = [openLoop 10, openLoop 11] := rfl
    have hleaf : ∀ i ∈ [5, 7, 8, 10, 11], (openLoop i).children = [] := by decide
    rw [Printer.print_eq_write (by decide), Printer.fragment, toDocument_of_children hif]
    simp only [List.map]
    rw [toDocument_of_children hwhile, toDocument_of_children (hleaf 5 (by decide)),
      toDocument_of_children (hleaf 7 (by decide))]
    simp only [List.map]
    rw [toDocument_of_children hinner, toDocument_of_children (hleaf 8 (by decide))]
    simp only [List.map]
    rw [toDocument_of_children (hleaf 10 (by decide)),
      toDocument_of_children (hleaf 11 (by decide))]
    rfl
  have hpositional : ∀ i : Fin 12, (openLoop i).isPositional = true := by decide
  have hkept := else_stays_with_if.1 (openLoop 4) {} _ ?_ hprint
  · obtain ⟨⟨w, hw⟩, hkeeps⟩ := hkept.2 (openLoop 4) .refl
    exact ⟨Tree.built_openLoop, hprint, w, hw, hkeeps w hw⟩
  · intro m hm
    obtain ⟨t, i, hi⟩ := m
    obtain rfl : t = Tree.openLoop := hm.tree_eq
    exact hpositional ⟨i, hi⟩

end JavaTree
