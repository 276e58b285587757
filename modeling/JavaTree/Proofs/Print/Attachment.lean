import JavaTree.Proofs.Print.Layout
import JavaTree.Proofs.Tree.Links

/-! # Comments stay above what they precede

    In the body of a type declaration the members stand one below the other,
    with blank lines between them but none after a comment.  Annotations and
    type parameters are taken out of the body before that, and so are the
    constants of an enum, which share a line above all other members.  What is
    left keeps its order, so a comment stands directly above the next child
    that is left (`Kind.isStacked`).

    The main statement is `Printer.comment_stays_above`.  A comment in front of
    a constant is not left with it: `Printer.comment_leaves_constant`. -/

namespace JavaTree

/-! ## Section 1: Lines of fragments -/

namespace Fragment

/-- Lines that begin with an empty one go below a fragment. -/
theorem lines_append_below (f : Fragment) (ls : List Line) :
    (f ++ (⟨"", ls⟩ : Fragment)).lines = f.lines ++ ls := by
  by_cases hf : f.tail = []
  · rw [append_of_tail_nil hf, lines, lines, hf]
    simp
  · have hlines : ∀ ks : List Line, ks ≠ [] → continueWith ⟨"", ls⟩ ks = ks ++ ls := by
      intro ks hks
      induction ks with
      | nil => exact absurd rfl hks
      | cons k ks ih =>
        cases ks with
        | nil => simp [continueWith]
        | cons m ks =>
          rw [continueWith_cons_cons, ih (by simp)]
          rfl
    rw [append_of_tail_ne_nil hf, lines, lines, hlines f.tail hf, List.cons_append]

/-- Behind a line break a fragment begins a line. -/
theorem ofText_newline_append (f : Fragment) : ofText "\n" ++ f = ⟨"", f.lines⟩ := by
  rw [append_of_tail_ne_nil (by decide)]
  show (⟨"", continueWith f [⟨0, ""⟩]⟩ : Fragment) = _
  simp [continueWith, lines]

theorem lines_append_newline (f g : Fragment) :
    (f ++ (ofText "\n" ++ g)).lines = f.lines ++ g.lines := by
  rw [ofText_newline_append, lines_append_below]

theorem lines_nest (f body : Fragment) :
    (f.nest body).lines = f.lines ++ body.lines.map Line.deeper := rfl

end Fragment

/-! ## Section 2: Bodies of type declarations -/

/-- Whether the body of a type sets a child of this kind below the one before
    it.  Annotations and type parameters stand in the header, and the constants
    of an enum on one line. -/
def Kind.isStacked (type : TypeKind) (k : Kind) : Bool :=
  !k.isAnnotationUse && k ≠ .typeParameter && !(type = .enum && k = .member .enumConstant)

namespace Template

/-- Between two declarations there is a blank line or nothing, and nothing
    after a comment. -/
theorem lines_items_cons_cons (p q : Part Fragment) (rest : List (Part Fragment)) :
    ∃ gap, (items (p :: q :: rest)).lines = p.body.lines ++ gap ++ (items (q :: rest)).lines ∧
      (p.kind.isComment = true → gap = []) := by
  rw [items]
  by_cases htight : (p.kind.isComment ||
      (decide (p.kind = .importDecl) && decide (q.kind = .importDecl))) = true
  · refine ⟨[], ?_, fun _ => rfl⟩
    rw [if_pos htight, Fragment.lines_append_newline, List.append_nil]
  · refine ⟨[⟨0, ""⟩], ?_, fun hcomment => absurd (by rw [hcomment]; rfl) htight⟩
    have hblank : Fragment.ofText "\n\n" = Fragment.ofText "\n" ++ Fragment.ofText "\n" :=
      Fragment.ofText_append "\n" "\n"
    rw [if_neg htight, hblank, Fragment.append_assoc, Fragment.lines_append_newline,
      Fragment.ofText_newline_append, List.append_assoc]
    rfl

/-- Declarations one below the other begin with the first one. -/
theorem lines_items_cons (p : Part Fragment) (rest : List (Part Fragment)) :
    ∃ below, (items (p :: rest)).lines = p.body.lines ++ below := by
  cases rest with
  | nil => exact ⟨[], (List.append_nil _).symm⟩
  | cons q rest =>
    obtain ⟨gap, hlines, -⟩ := lines_items_cons_cons p q rest
    exact ⟨gap ++ (items (q :: rest)).lines, by rw [hlines, List.append_assoc]⟩

/-- They end in the last ones. -/
theorem lines_items_append (before : List (Part Fragment)) {rest : List (Part Fragment)}
    (h : rest ≠ []) :
    ∃ above, (items (before ++ rest)).lines = above ++ (items rest).lines := by
  induction before with
  | nil => exact ⟨[], rfl⟩
  | cons p before ih =>
    obtain ⟨above, habove⟩ := ih
    obtain ⟨q, qs, hq⟩ := List.exists_cons_of_ne_nil (l := before ++ rest) (by simp [h])
    obtain ⟨gap, hlines, -⟩ := lines_items_cons_cons p q qs
    refine ⟨p.body.lines ++ gap ++ above, ?_⟩
    rw [List.cons_append, hq, hlines, ← hq, habove, List.append_assoc _ above]

/-- A comment stands directly above the declaration behind it. -/
theorem lines_items_comment {c : Part Fragment} (hc : c.kind.isComment = true)
    (before after : List (Part Fragment)) (m : Part Fragment) :
    c.body.lines ++ m.body.lines <:+: (items (before ++ c :: m :: after)).lines := by
  obtain ⟨above, habove⟩ := lines_items_append before (List.cons_ne_nil c (m :: after))
  obtain ⟨gap, hlines, hgap⟩ := lines_items_cons_cons c m after
  obtain ⟨below, hbelow⟩ := lines_items_cons m after
  refine ⟨above, below, ?_⟩
  rw [habove, hlines, hgap hc, hbelow]
  simp only [List.append_assoc, List.nil_append]

/-- The members of a type end in those that stand one below the other. -/
theorem lines_typeBody {type : TypeKind} {members : List (Part Fragment)}
    (h : members.filter (·.kind.isStacked type) ≠ [])
    (hmembers : ∀ p ∈ members, p.kind.isAnnotationUse = false ∧ p.kind ≠ .typeParameter) :
    (items (members.filter (·.kind.isStacked type))).lines <:+ (typeBody type members).lines := by
  by_cases htype : type = .enum
  · -- The constants come first, and everything else is stacked.
    have hothers : notOfKind (.member .enumConstant) members =
        members.filter (·.kind.isStacked type) := by
      apply List.filter_congr
      intro p hp
      obtain ⟨huse, hparameter⟩ := hmembers p hp
      simp [Kind.isStacked, huse, hparameter, htype]
    have hsplit : Fragment.ofText ";\n\n" = Fragment.ofText ";\n" ++ Fragment.ofText "\n" :=
      Fragment.ofText_append ";\n" "\n"
    rw [typeBody, if_pos htype, hothers]
    dsimp only
    rw [if_neg (by simpa using h), hsplit, ← Fragment.append_assoc, Fragment.append_assoc _ _
      (items _), Fragment.lines_append_newline]
    exact List.suffix_append _ _
  · have hall : members.filter (·.kind.isStacked type) = members := by
      apply List.filter_eq_self.2
      intro p hp
      obtain ⟨huse, hparameter⟩ := hmembers p hp
      simp [Kind.isStacked, huse, hparameter, htype]
    simp only [typeBody, if_neg htype, hall, List.suffix_rfl]

/-- The members of a type, without what stands in the header. -/
theorem filter_isStacked_members (type : TypeKind) (parts : List (Part Fragment)) :
    (notOfKind .typeParameter (withoutAnnotations parts)).filter (·.kind.isStacked type) =
      parts.filter (·.kind.isStacked type) := by
  rw [notOfKind, withoutAnnotations, List.filter_filter, List.filter_filter]
  apply List.filter_congr
  intro p _
  unfold Kind.isStacked
  grind

/-- A type declaration holds its stacked members, one level to the right, and
    ends in a brace. -/
theorem lines_typeDecl {type : TypeKind} (a : Attributes) {parts : List (Part Fragment)}
    (h : 1 < (items (parts.filter (·.kind.isStacked type))).lines.length) :
    ∃ above, (typeDecl type a parts).lines =
      above ++ (items (parts.filter (·.kind.isStacked type))).lines.map Line.deeper
        ++ [⟨0, "\x7d"⟩] := by
  have hmembers : ∀ p ∈ notOfKind .typeParameter (withoutAnnotations parts),
      p.kind.isAnnotationUse = false ∧ p.kind ≠ .typeParameter := by
    intro p hp
    obtain ⟨hrest, hparameter⟩ := List.mem_filter.1 hp
    obtain ⟨-, huse⟩ := List.mem_filter.1 hrest
    exact ⟨by simpa using huse, by simpa using hparameter⟩
  have hstacked := filter_isStacked_members type parts
  have hne : (notOfKind .typeParameter (withoutAnnotations parts)).filter
      (·.kind.isStacked type) ≠ [] := by
    rw [hstacked]
    intro hnil
    rw [hnil] at h
    exact absurd h (by decide)
  obtain ⟨first, hbody⟩ := lines_typeBody hne hmembers
  rw [hstacked] at hbody
  -- With two lines or more the body is not left out.
  have hfilled : (typeBody type (notOfKind .typeParameter (withoutAnnotations parts))).isEmpty
      = false := by
    have hlength := congrArg List.length hbody
    rw [List.length_append] at hlength
    apply Bool.eq_false_iff.2
    intro hempty
    simp only [Fragment.isEmpty, Bool.and_eq_true, List.isEmpty_iff] at hempty
    have hone : (typeBody type (notOfKind .typeParameter (withoutAnnotations parts))).lines.length
        = 1 := by
      rw [Fragment.lines, hempty.2]
      rfl
    omega
  rw [typeDecl, hfilled, if_neg (by decide)]
  have hbrace : Fragment.ofText "\n\x7d" = ⟨"", [⟨0, "\x7d"⟩]⟩ := by decide
  rw [hbrace, Fragment.lines_append_below, Fragment.lines_nest, ← hbody, List.map_append,
    ← List.append_assoc]
  exact ⟨_, rfl⟩

/-- In a type declaration a comment stands directly above the next child that
    is stacked. -/
theorem lines_typeDecl_comment {type : TypeKind} (a : Attributes)
    (before after : List (Part Fragment)) {passed : List (Part Fragment)} {c m : Part Fragment}
    (hc : c.kind.isComment = true) (hpassed : ∀ p ∈ passed, p.kind.isStacked type = false)
    (hm : m.kind.isStacked type = true) :
    ∃ above below, (typeDecl type a (before ++ c :: (passed ++ m :: after))).lines =
      above ++ (c.body.lines ++ m.body.lines).map Line.deeper ++ (below ++ [⟨0, "\x7d"⟩]) := by
  have hcomment : c.kind.isStacked type = true := by
    cases hk : c.kind <;> simp_all [Kind.isComment, Kind.isStacked, Kind.isAnnotationUse]
  have hnone : passed.filter (·.kind.isStacked type) = [] :=
    List.filter_eq_nil_iff.2 (by simpa using hpassed)
  have hfilter : (before ++ c :: (passed ++ m :: after)).filter (·.kind.isStacked type) =
      before.filter (·.kind.isStacked type) ++ c :: m :: after.filter (·.kind.isStacked type) := by
    rw [List.filter_append, List.filter_cons_of_pos (by exact hcomment), List.filter_append,
      hnone, List.filter_cons_of_pos (by exact hm), List.nil_append]
  have hitems := lines_items_comment hc (before.filter (·.kind.isStacked type))
    (after.filter (·.kind.isStacked type)) m
  rw [← hfilter] at hitems
  have hlong : 1 < (items ((before ++ c :: (passed ++ m :: after)).filter
      (·.kind.isStacked type))).lines.length := by
    have hlength := hitems.length_le
    simp only [List.length_append, Fragment.lines, List.length_cons] at hlength ⊢
    omega
  obtain ⟨above, habove⟩ := lines_typeDecl a hlong
  obtain ⟨first, last, hsplit⟩ := hitems
  refine ⟨above ++ first.map Line.deeper, last.map Line.deeper, ?_⟩
  rw [habove, ← hsplit]
  simp only [List.map_append, List.append_assoc]

end Template

/-! ## Section 3: Printed lines -/

/-- The text of lines that other lines follow. -/
def Layout.writeAll (layout : Layout) (ls : List Line) : String :=
  layout.breakMarks (String.join (ls.map fun l => layout.writeLine l.dropReturn))

theorem Layout.writeAll_append (layout : Layout) (ls ms : List Line) :
    layout.writeAll (ls ++ ms) = layout.writeAll ls ++ layout.writeAll ms := by
  rw [writeAll, List.map_append, String.join_append, breakMarks_append]
  rfl

namespace Fragment

theorem write_of_lines_append_brace {f : Fragment} {ls : List Line}
    (h : f.lines = ls ++ [⟨0, "\x7d"⟩]) (layout : Layout) :
    f.write layout = layout.writeAll f.lines := by
  rw [write, h, written_append (by decide), Layout.writeAll, List.map_append, List.map_append,
    List.map_map]
  rfl

end Fragment

/-! ## Section 4: Main statement -/

namespace Printer

/-- A comment stays attached to the member it precedes.

    In a printed type declaration of any kind, a comment stands directly above
    the next child that is set below others, with its last line above that
    child's first line and both one level to the right of the declaration.
    Only annotations, type parameters and the constants of an enum are passed
    over on the way to that child, so it is the next sibling itself whenever
    that is a comment, a type, or a member other than such a constant. -/
theorem comment_stays_above {n c m : Cursor} {type : TypeKind} {before passed after : List Cursor}
    {layout : Layout} {out : String} (hkind : n.kind = .type type)
    (hchildren : n.children = before ++ c :: (passed ++ m :: after))
    (hc : c.kind.isComment = true) (hpassed : ∀ p ∈ passed, p.kind.isStacked type = false)
    (hm : m.kind.isStacked type = true) (hprint : print layout n = .ok out) :
    ∃ f g h above below, fragment n = .ok f ∧ fragment c = .ok g ∧ fragment m = .ok h ∧
      f.lines = above ++ (g.lines ++ h.lines).map Line.deeper ++ below ∧
      out = layout.writeAll above ++ layout.writeAll (g.lines.map Line.deeper)
        ++ layout.writeAll (h.lines.map Line.deeper) ++ layout.writeAll below := by
  obtain ⟨f, hf, rfl⟩ := of_print_eq_ok hprint
  obtain ⟨hfragments, hnode⟩ := node_of_fragment_eq_ok hf
  rw [hkind, hchildren] at hnode
  simp only [List.map_append, List.map_cons] at hnode
  have hskipped : ∀ p ∈ passed.map Cursor.part, p.kind.isStacked type = false :=
    List.forall_mem_map.2 hpassed
  obtain ⟨above, below, hlines⟩ := Template.lines_typeDecl_comment n.attributes
    (before.map Cursor.part) (after.map Cursor.part) (c := c.part) (m := m.part) hc hskipped hm
  rw [Except.ok.inj hnode] at hlines
  refine ⟨f, c.sourceText, m.sourceText, above, below ++ [⟨0, "\x7d"⟩], hf,
    hfragments c (by simp [hchildren]), hfragments m (by simp [hchildren]), hlines, ?_⟩
  rw [← List.append_assoc] at hlines
  rw [Fragment.write_of_lines_append_brace hlines, hlines, Layout.writeAll_append,
    Layout.writeAll_append, Layout.writeAll_append, List.map_append, Layout.writeAll_append,
    Layout.writeAll_append]
  simp only [String.append_assoc]
  rfl

end Printer

/-! ## Section 5: A comment in front of a constant -/

/-- An enum with a comment, a constant and a class. -/
def Builder.commentedConstant : Builder :=
  let name (s : String) : Attributes := Attributes.empty.insert Key.name (.text s)
  (((new.add 0 (.type .enum) (name "E")).add 1 (.comment .line)
    (Attributes.empty.insert Key.content (.text " c"))).add 1 (.member .enumConstant)
      (name "A")).add 1 (.type .class) (name "C")

/-- The tree of `Builder.commentedConstant`. -/
def Tree.commentedConstant : Tree :=
  ⟨Builder.commentedConstant.arena, Builder.commentedConstant.ordered, by decide⟩

theorem Tree.built_commentedConstant : commentedConstant.Built := by
  have hreach : Builder.commentedConstant.Reachable := by
    iterate 4 refine Builder.Reachable.add ?_ (by decide) _ _
    exact .start _ _
  exact ⟨Builder.commentedConstant, hreach, Builder.finish_eq_ok_iff.2 ⟨by decide, rfl⟩⟩

/-- A node of `Tree.commentedConstant`. -/
def Cursor.commentedConstant (i : Fin 5) : Cursor :=
  ⟨Tree.commentedConstant, i, Nat.lt_of_lt_of_eq i.isLt rfl⟩

namespace Printer

theorem fragment_commentedConstant :
    fragment (.commentedConstant 1) = .ok ⟨"enum E \x7b", [⟨0, ""⟩, ⟨1, "A;"⟩, ⟨0, ""⟩, ⟨1, "// c"⟩,
      ⟨1, "class C \x7b"⟩, ⟨1, "\x7d"⟩, ⟨0, "\x7d"⟩]⟩ ∧
    fragment (.commentedConstant 2) = .ok ⟨"// c", []⟩ ∧
    fragment (.commentedConstant 3) = .ok ⟨"A", []⟩ := by
  have henum : (Cursor.commentedConstant 1).children =
      [.commentedConstant 2, .commentedConstant 3, .commentedConstant 4] := rfl
  have hleaf : ∀ i ∈ [2, 3, 4], (Cursor.commentedConstant i).children = [] := by decide
  simp only [fragment, Cursor.toDocument_of_children henum, List.map]
  rw [Cursor.toDocument_of_children (hleaf 2 (by decide)),
    Cursor.toDocument_of_children (hleaf 3 (by decide)),
    Cursor.toDocument_of_children (hleaf 4 (by decide))]
  exact ⟨rfl, rfl, rfl⟩

/-- The comment passes over the constant and stands above the class. -/
theorem comment_stays_above_commentedConstant :
    Tree.commentedConstant.Built ∧
      print {} (.commentedConstant 1) =
        .ok "enum E \x7b\n\n  A;\n\n  // c\n  class C \x7b\n  \x7d\n\x7d\n" ∧
      ∃ f g h above below, fragment (.commentedConstant 1) = .ok f ∧
        fragment (.commentedConstant 2) = .ok g ∧ fragment (.commentedConstant 4) = .ok h ∧
        f.lines = above ++ (g.lines ++ h.lines).map Line.deeper ++ below := by
  have hprint : print {} (.commentedConstant 1) =
      .ok "enum E \x7b\n\n  A;\n\n  // c\n  class C \x7b\n  \x7d\n\x7d\n" := by
    rw [print_eq_write (by decide), fragment_commentedConstant.1]
    rfl
  have hchildren : (Cursor.commentedConstant 1).children =
      [] ++ .commentedConstant 2 :: ([.commentedConstant 3] ++ .commentedConstant 4 :: []) := rfl
  have henum : (Cursor.commentedConstant 1).kind = .type .enum := by decide
  obtain ⟨f, g, h, above, below, hf, hg, hh, hlines, -⟩ :=
    comment_stays_above henum hchildren (by decide) (by decide) (by decide) hprint
  exact ⟨Tree.built_commentedConstant, hprint, f, g, h, above, below, hf, hg, hh, hlines⟩

/-- In front of the constant of an enum, a comment does not stay above it. -/
theorem comment_leaves_constant :
    Tree.commentedConstant.Built ∧ (Cursor.commentedConstant 1).kind = .type .enum ∧
      (Cursor.commentedConstant 1).children =
        [.commentedConstant 2, .commentedConstant 3, .commentedConstant 4] ∧
      (Cursor.commentedConstant 2).kind = .comment .line ∧
      (Cursor.commentedConstant 3).kind = .member .enumConstant ∧
      ∃ f g h, fragment (.commentedConstant 1) = .ok f ∧ fragment (.commentedConstant 2) = .ok g ∧
        fragment (.commentedConstant 3) = .ok h ∧
        ¬∃ above below, f.lines = above ++ (g.lines ++ h.lines).map Line.deeper ++ below := by
  obtain ⟨hf, hg, hh⟩ := fragment_commentedConstant
  refine ⟨Tree.built_commentedConstant, by decide, rfl, by decide, by decide, _, _, _, hf, hg, hh,
    ?_⟩
  rintro ⟨above, below, hlines⟩
  -- The comment's line is followed by the class.
  have hinfix : [⟨1, "// c"⟩, ⟨1, "A"⟩] <:+: ([⟨0, "enum E \x7b"⟩, ⟨0, ""⟩, ⟨1, "A;"⟩, ⟨0, ""⟩,
      ⟨1, "// c"⟩, ⟨1, "class C \x7b"⟩, ⟨1, "\x7d"⟩, ⟨0, "\x7d"⟩] : List Line) :=
    ⟨above, below, hlines.symm⟩
  exact absurd hinfix (by decide)

end Printer

end JavaTree
