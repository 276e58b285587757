import JavaTree.Proofs.Print.Structural
import JavaTree.Proofs.Print.Uniform

/-! # Layout options change the layout only

    A printed text is a list of lines with their levels, which depends on the
    tree alone; the options say how wide a level is and what ends a line.  The
    breaks in the values of literals are followed by putting another character
    in their place (`Document.replaceBreaks`): that character then stands
    inside a line, and where it does the break begins a line at the left
    margin.

    The main statement is `Printer.print_lines`. -/

namespace JavaTree

/-! ## Section 1: Lines begun at marks -/

/-- A line in several pieces: the first one stands at the level of the line and
    the others at the left margin. -/
def Line.inPieces (level : Nat) : List (List Char) → List Line
  | [] => []
  | p :: ps => ⟨level, String.ofList p⟩ :: ps.map fun p => ⟨0, String.ofList p⟩

/-- Cut a line at its marks. -/
def Line.cut (l : Line) : List Line := inPieces l.level (Text.pieces lineMark l.text.toList)

/-- With line ends for its separators and one at the end, a text is its pieces,
    each with a line end. -/
theorem Text.flatMap_pieces (sep : Char) (cs terminator : List Char) :
    cs.flatMap (fun c => if c = sep then terminator else [c]) ++ terminator =
      (pieces sep cs).flatMap (· ++ terminator) := by
  induction cs with
  | nil => simp [pieces]
  | cons c cs ih =>
    rw [List.flatMap_cons, List.append_assoc, ih, pieces]
    by_cases hc : c = sep
    · rw [if_pos hc, if_pos hc]
      rfl
    · rw [if_neg hc, if_neg hc]
      cases hp : pieces sep cs with
      | nil => exact absurd hp (pieces_ne_nil sep cs)
      | cons p ps => rfl

namespace Layout

variable {layout : Layout}

theorem breakMarks_append (s t : String) :
    layout.breakMarks (s ++ t) = layout.breakMarks s ++ layout.breakMarks t := by
  simp [breakMarks, String.ofList_append]

/-- A text without marks stays as it is. -/
theorem breakMarks_of_not_mem {s : String} (h : lineMark ∉ s.toList) :
    layout.breakMarks s = s := by
  have hsame : s.toList.flatMap (fun c =>
      if c = lineMark then layout.lineTerminator.toList else [c]) = s.toList := by
    generalize s.toList = cs at h
    induction cs with
    | nil => rfl
    | cons c cs ih =>
      obtain ⟨hc, hcs⟩ := not_or.1 (mt List.mem_cons.2 h)
      rw [List.flatMap_cons, if_neg (Ne.symm hc), ih hcs]
      rfl
  rw [breakMarks, hsame, String.ofList_toList]

/-- A line with its marks broken is written as the lines it is cut into. -/
theorem breakMarks_writeLine (h : lineMark ∉ layout.lineTerminator.toList) (l : Line) :
    layout.breakMarks (layout.writeLine l) = String.join (l.cut.map layout.writeLine) := by
  have hspaces : lineMark ∉
      (String.ofList (List.replicate (layout.indentWidth * l.level) ' ')).toList := by
    rw [String.toList_ofList, List.mem_replicate]
    exact fun hmark => absurd hmark.2 (by decide)
  rw [writeLine, breakMarks_append, breakMarks_append, breakMarks_of_not_mem hspaces,
    breakMarks_of_not_mem h, String.append_assoc]
  have htext : layout.breakMarks l.text ++ layout.lineTerminator =
      String.join ((Text.pieces lineMark l.text.toList).map fun p =>
        String.ofList p ++ layout.lineTerminator) := by
    rw [← String.toList_inj]
    simpa [breakMarks, List.flatMap_map] using
      Text.flatMap_pieces lineMark l.text.toList layout.lineTerminator.toList
  rw [htext, Line.cut]
  cases hp : Text.pieces lineMark l.text.toList with
  | nil => exact absurd hp (Text.pieces_ne_nil lineMark l.text.toList)
  | cons p ps =>
    -- The pieces behind the first one have no indentation.
    have hmargin (q : List Char) : layout.writeLine ⟨0, String.ofList q⟩ =
        String.ofList q ++ layout.lineTerminator := by
      simp [writeLine]
    rw [List.map_cons, String.join_cons, Line.inPieces, List.map_cons, String.join_cons,
      List.map_map]
    simp only [Function.comp_def, hmargin]
    rw [writeLine, String.append_assoc, String.append_assoc, String.append_assoc]

end Layout

/-- The text of a fragment is that of its lines, cut at the marks. -/
theorem Fragment.write_eq {layout : Layout} (h : lineMark ∉ layout.lineTerminator.toList)
    (f : Fragment) :
    f.write layout = String.join (((written f.lines).flatMap Line.cut).map layout.writeLine) := by
  rw [write]
  induction written f.lines with
  | nil => rfl
  | cons l ls ih =>
    rw [List.map_cons, String.join_cons, Layout.breakMarks_append, ih,
      Layout.breakMarks_writeLine h, List.flatMap_cons, List.map_append, String.join_append]

/-! ## Section 2: Other characters for the breaks in literals -/

/-- Put a character in place of the line breaks in the value of a literal. -/
def Attributes.replaceBreaks (c : Char) (a : Attributes) : Attributes :=
  match a.text? Key.value with
  | some s => a.insert Key.value
      (.text (String.ofList (s.toList.map fun d => if d = '\n' then c else d)))
  | none => a

namespace Document

mutual

/-- Put a character in place of the line breaks in the values of all literals. -/
def replaceBreaks (c : Char) : Document → Document
  | .node k a cs =>
    .node k (if k = .expression .literal then a.replaceBreaks c else a) (replaceBreaksAll c cs)

/-- Put it in place of those of several documents. -/
def replaceBreaksAll (c : Char) : List Document → List Document
  | [] => []
  | d :: ds => d.replaceBreaks c :: replaceBreaksAll c ds

end

theorem replaceBreaksAll_eq (c : Char) (ds : List Document) :
    replaceBreaksAll c ds = ds.map (replaceBreaks c) := by
  induction ds with
  | nil => rfl
  | cons d ds ih => rw [replaceBreaksAll, ih, List.map_cons]

/-- The document with a character for the breaks in its literals.  The mark
    stands for a break, so it leaves the document alone. -/
def filled (c : Char) (d : Document) : Document := if c = lineMark then d else d.replaceBreaks c

/-- The attributes of a filled document. -/
def filledAttributes (c : Char) (k : Kind) (a : Attributes) : Attributes :=
  if c = lineMark then a else if k = .expression .literal then a.replaceBreaks c else a

theorem filledAttributes_of_ne {k : Kind} (hk : k ≠ .expression .literal) (c : Char)
    (a : Attributes) : filledAttributes c k a = a := by
  rw [filledAttributes, if_neg hk, ite_self]

theorem filled_node (c : Char) (k : Kind) (a : Attributes) (cs : List Document) :
    filled c (.node k a cs) = .node k (filledAttributes c k a) (cs.map (filled c)) := by
  unfold filledAttributes
  by_cases hc : c = lineMark
  · have hfilled : filled c = id := funext fun d => if_pos hc
    rw [hfilled, if_pos hc, List.map_id]
    rfl
  · have hfilled : filled c = replaceBreaks c := funext fun d => if_neg hc
    rw [hfilled, if_neg hc, replaceBreaks, replaceBreaksAll_eq]

@[simp] theorem kind_filled (c : Char) (d : Document) : (d.filled c).kind = d.kind := by
  cases d
  rw [filled_node]
  rfl

@[simp] theorem attributes_filled (c : Char) (d : Document) :
    (d.filled c).attributes = filledAttributes c d.kind d.attributes := by
  cases d
  rw [filled_node]
  rfl

mutual

theorem endsInOpenIf_filled (c : Char) : (d : Document) → (d.filled c).endsInOpenIf = d.endsInOpenIf
  | .node k a cs => by
    rw [filled_node, endsInOpenIf, endsInOpenIf, List.length_map, lastEndsInOpenIf_map_filled]

theorem lastEndsInOpenIf_map_filled (c : Char) :
    (ds : List Document) → lastEndsInOpenIf (ds.map (filled c)) = lastEndsInOpenIf ds
  | [] => rfl
  | [d] => by
    show (!(d.filled c).kind.isBlock && (d.filled c).endsInOpenIf) = _
    rw [kind_filled, endsInOpenIf_filled c d]
    rfl
  | _ :: d :: ds => lastEndsInOpenIf_map_filled c (d :: ds)

end

end Document

/-! ## Section 3: Documents are uniform -/

/-- The value of a literal with gaps for its breaks. -/
def GapText.ofValue (s : String) : GapText :=
  s.toList.map fun d => if d = '\n' then none else some d

theorem GapText.fill_ofValue (c : Char) (s : String) :
    fill c (ofValue s) = String.ofList (s.toList.map fun d => if d = '\n' then c else d) := by
  rw [fill, ofValue, List.map_map]
  congr 2
  funext d
  by_cases hd : d = '\n'
  · simp [hd]
  · simp [hd]

/-- Whatever fills the gaps of its value, a literal is on one line. -/
theorem Template.literal_eq_fill {c : Char} (hc : Filler c) {a : Attributes} {s : String}
    (h : a.text? Key.value = some s) :
    literal (Document.filledAttributes c (.expression .literal) a) =
      GapFragment.fill c ⟨.ofValue s, []⟩ := by
  have hc' : c ≠ '\n' := hc.ne (by decide)
  -- The breaks are the filler already or become marks, which is the filler then.
  have htext : ((Document.filledAttributes c (.expression .literal) a).text? Key.value).getD
      "null" = if c = lineMark then s else GapText.fill c (.ofValue s) := by
    rw [Document.filledAttributes, if_pos rfl]
    by_cases hmark : c = lineMark
    · rw [if_pos hmark, if_pos hmark, h]
      rfl
    · rw [if_neg hmark, if_neg hmark, Attributes.replaceBreaks, h, Attributes.text?,
        Attributes.get?_insert_self, GapText.fill_ofValue]
      rfl
  have hmarked : String.ofList ((if c = lineMark then s else GapText.fill c (.ofValue s)).toList.map
      fun d => if d = '\n' then lineMark else d) = GapText.fill c (.ofValue s) := by
    rw [GapText.fill_ofValue]
    by_cases hmark : c = lineMark
    · rw [if_pos hmark, hmark]
    · rw [if_neg hmark, String.toList_ofList, List.map_map]
      congr 2
      funext d
      by_cases hd : d = '\n'
      · simp [hd, hc']
      · simp [hd]
  have hline : '\n' ∉ (GapText.fill c (.ofValue s)).toList := by
    rw [GapText.fill_ofValue, String.toList_ofList, List.mem_map]
    rintro ⟨d, -, hd⟩
    split at hd
    · exact hc' hd
    · contradiction
  rw [literal, htext, hmarked, Fragment.ofText_of_not_mem hline]
  rfl

/-- The breaks of a literal are gaps. -/
theorem Template.uniform_literal (a : Attributes) :
    Uniform fun c => literal (Document.filledAttributes c (.expression .literal) a) := by
  cases h : a.text? Key.value with
  | some s => exact ⟨_, fun c hc => literal_eq_fill hc h⟩
  | none =>
    have hsame (c : Char) : Document.filledAttributes c (.expression .literal) a = a := by
      rw [Document.filledAttributes, if_pos rfl, Attributes.replaceBreaks, h, ite_self]
    simp only [hsame]
    exact .const _

namespace Document

mutual

/-- The source text of a document has gaps where its literals have breaks. -/
theorem uniform_fragment : (d : Document) → UniformAnswer fun c => (d.filled c).fragment
  | .node k a cs => by
    simp only [filled_node, fragment, assemble]
    rcases uniform_fragments cs with ⟨e, he⟩ | ⟨ps, hps⟩
    · exact ⟨.error e, fun c hc => by simp only [he c hc]; rfl⟩
    · have hnode : UniformAnswer fun c =>
          Template.node k (filledAttributes c k a) (ps.map (·.fill c)) := by
        by_cases hk : k = .expression .literal
        · subst hk
          exact .pure (Template.uniform_literal a)
        · simp only [filledAttributes_of_ne hk]
          exact Template.uniform_node a ps hk
      -- What the template is applied to are the parts, with their gaps filled.
      obtain ⟨g, hg⟩ := hnode
      refine ⟨g, fun c hc => ?_⟩
      obtain ⟨bodies, hbodies, hparts⟩ := hps c hc
      rw [← hg c hc]
      dsimp only
      rw [hbodies, ← hparts]
      rfl

/-- Several documents fail as one of them always does, or are parts with gaps. -/
theorem uniform_fragments : (ds : List Document) →
    (∃ e, ∀ c, Filler c → assembleAll Template.node (ds.map (filled c)) = .error e) ∨
    ∃ ps : List GapPart, ∀ c, Filler c → ∃ bodies,
      assembleAll Template.node (ds.map (filled c)) = .ok bodies ∧
      (ds.map (filled c)).zipWith toPart bodies = ps.map (·.fill c)
  | [] => .inr ⟨[], fun _ _ => ⟨[], rfl, rfl⟩⟩
  | d :: ds => by
    obtain ⟨r, hr⟩ : ∃ r : Except RenderFailure GapFragment, ∀ c, Filler c →
        (d.filled c).assemble Template.node = r.map (·.fill c) := uniform_fragment d
    cases r with
    | error e =>
      refine .inl ⟨e, fun c hc => ?_⟩
      rw [List.map_cons, assembleAll, hr c hc]
      rfl
    | ok g =>
      rcases uniform_fragments ds with ⟨e, he⟩ | ⟨ps, hps⟩
      · refine .inl ⟨e, fun c hc => ?_⟩
        rw [List.map_cons, assembleAll, hr c hc, he c hc]
        rfl
      · -- A literal is no parameter, so its attributes may depend on the filler.
        have hfixed : d.kind = .parameter → ∀ c c',
            (d.filled c).attributes = (d.filled c').attributes := by
          intro hkind c c'
          have hne : d.kind ≠ .expression .literal := by
            rw [hkind]
            decide
          rw [attributes_filled, attributes_filled, filledAttributes_of_ne hne,
            filledAttributes_of_ne hne]
        let p : GapPart := ⟨d.kind, fun c => (d.filled c).attributes, d.endsInOpenIf, g, hfixed⟩
        refine .inr ⟨p :: ps, fun c hc => ?_⟩
        obtain ⟨bodies, hbodies, hparts⟩ := hps c hc
        refine ⟨g.fill c :: bodies, ?_, ?_⟩
        · rw [List.map_cons, assembleAll, hr c hc, hbodies]
          rfl
        · rw [List.map_cons, List.zipWith_cons_cons, hparts, List.map_cons, toPart, kind_filled,
            endsInOpenIf_filled]
          rfl

end

end Document

/-! ## Section 4: Lines begun at gaps -/

/-- Cut a text at its gaps. -/
def GapText.pieces : GapText → List (List Char)
  | [] => [[]]
  | none :: t => [] :: pieces t
  | some c :: t =>
    match pieces t with
    | [] => [[c]]
    | p :: ps => (c :: p) :: ps

theorem GapText.pieces_ne_nil (t : GapText) : t.pieces ≠ [] := by
  cases t with
  | nil => exact List.cons_ne_nil _ _
  | cons o t =>
    cases o with
    | none => exact List.cons_ne_nil _ _
    | some c =>
      rw [pieces]
      split <;> exact List.cons_ne_nil _ _

/-- Begin a line at the left margin at every gap. -/
def GapLine.broken (l : GapLine) : List Line := Line.inPieces l.level l.text.pieces

/-- Cutting at marks that fill the gaps is cutting at the gaps first. -/
theorem GapText.pieces_fill_lineMark (t : GapText) :
    Text.pieces lineMark (t.map (·.getD lineMark)) = t.pieces.flatMap (Text.pieces lineMark) := by
  induction t with
  | nil => rfl
  | cons o t ih =>
    cases o with
    | none =>
      rw [List.map_cons, Option.getD_none, Text.pieces, if_pos rfl, ih]
      rfl
    | some c =>
      rw [List.map_cons, Option.getD_some, Text.pieces, ih, pieces]
      cases hp : pieces t with
      | nil => exact absurd hp (pieces_ne_nil t)
      | cons p ps =>
        dsimp only
        rw [List.flatMap_cons, List.flatMap_cons, Text.pieces]
        by_cases hc : c = lineMark
        · rw [if_pos hc, if_pos hc]
          rfl
        · rw [if_neg hc, if_neg hc]
          cases hq : Text.pieces lineMark p with
          | nil => exact absurd hq (Text.pieces_ne_nil lineMark p)
          | cons q qs => rfl

theorem Line.inPieces_zero (ps : List (List Char)) :
    inPieces 0 ps = ps.map fun p => ⟨0, String.ofList p⟩ := by
  cases ps <;> rfl

theorem Line.level_of_mem_inPieces_zero {ps : List (List Char)} {l : Line}
    (h : l ∈ inPieces 0 ps) : l.level = 0 := by
  rw [inPieces_zero, List.mem_map] at h
  obtain ⟨p, -, rfl⟩ := h
  rfl

theorem Line.inPieces_append {level : Nat} {ps qs : List (List Char)} (h : ps ≠ []) :
    inPieces level (ps ++ qs) = inPieces level ps ++ inPieces 0 qs := by
  obtain ⟨p, ps, rfl⟩ := List.exists_cons_of_ne_nil h
  cases qs with
  | nil => simp [inPieces]
  | cons q qs => simp [inPieces]

theorem Line.cut_mk (level : Nat) (p : List Char) :
    cut ⟨level, String.ofList p⟩ = inPieces level (Text.pieces lineMark p) := by
  rw [cut, String.toList_ofList]

theorem Line.flatMap_cut_inPieces (level : Nat) (ps : List (List Char)) :
    (inPieces level ps).flatMap cut = inPieces level (ps.flatMap (Text.pieces lineMark)) := by
  induction ps generalizing level with
  | nil => rfl
  | cons p ps ih =>
    rw [inPieces, ← inPieces_zero, List.flatMap_cons, ih, cut_mk, List.flatMap_cons,
      inPieces_append (Text.pieces_ne_nil lineMark p)]

/-- A line with marks in its gaps is cut into the lines begun at its gaps,
    which are cut at their own marks. -/
theorem GapLine.cut_fill_lineMark (l : GapLine) :
    (l.fill lineMark).cut = l.broken.flatMap Line.cut := by
  rw [broken, Line.flatMap_cut_inPieces, Line.cut, fill, GapText.toList_fill,
    GapText.pieces_fill_lineMark]

/-- A line begun at a gap stands at the left margin, and so do all lines it is
    cut into. -/
theorem GapLine.level_of_mem_cut {l : GapLine} {k x : Line} (hk : k ∈ l.broken.tail)
    (hx : x ∈ k.cut) : x.level = 0 := by
  have hlevel : k.level = 0 := by
    rw [broken] at hk
    cases hp : GapText.pieces l.text with
    | nil => exact absurd hp (GapText.pieces_ne_nil l.text)
    | cons p ps =>
      rw [hp, Line.inPieces, List.tail_cons, ← Line.inPieces_zero] at hk
      exact Line.level_of_mem_inPieces_zero hk
  rw [Line.cut, hlevel] at hx
  exact Line.level_of_mem_inPieces_zero hx

/-! ## Section 5: What the options change -/

namespace Printer

/-- There is one outcome for all layout options with room for the spaces of a
    level.  Either printing a node always fails in the same way, or there are
    lines, each at a level, that depend on the node alone, and under every such
    layout they are what is printed.

    The lines have gaps exactly where the literals of the subtree have line
    breaks: with any other character for these breaks the same lines are
    printed, with the character in the gaps.  A line begun at a gap stands at
    the left margin, however deep the literal is nested.

    Without room for the spaces of a level printing panics, even if no line is
    indented. -/
theorem print_lines (n : Cursor) :
    ((∃ e, ∀ layout : Layout, layout.indentWidth ≤ maxBytes → print layout n = .error e) ∨
      ∃ lines : List GapLine,
        (∀ layout : Layout, layout.indentWidth ≤ maxBytes →
          lineMark ∉ layout.lineTerminator.toList →
            print layout n = .ok (String.join
              ((lines.flatMap fun l => l.broken.flatMap Line.cut).map layout.writeLine))) ∧
        (∀ c, Filler c → c ≠ lineMark → ∀ layout : Layout, layout.indentWidth ≤ maxBytes →
          lineMark ∉ layout.lineTerminator.toList →
            (n.toDocument.replaceBreaks c).print layout = .ok (String.join
              ((lines.flatMap fun l => (l.fill c).cut).map layout.writeLine))) ∧
        ∀ l ∈ lines, ∀ k ∈ l.broken.tail, ∀ x ∈ k.cut, x.level = 0) ∧
    ∀ layout : Layout, maxBytes < layout.indentWidth →
      print layout n = .error (.panicked .capacity) := by
  refine ⟨?_, fun layout hwide => print_of_wide hwide n⟩
  obtain ⟨r, hr⟩ : ∃ r : Except RenderFailure GapFragment, ∀ c, Filler c →
      (n.toDocument.filled c).fragment = r.map (·.fill c) := n.toDocument.uniform_fragment
  have hmark : n.toDocument.fragment = r.map (·.fill lineMark) := hr lineMark (by decide)
  cases r with
  | error e =>
    refine .inl ⟨e, fun layout hwidth => ?_⟩
    rw [print_eq_write hwidth, fragment, hmark]
    rfl
  | ok g =>
    have hwrite {c : Char} (hc : Filler c) {layout : Layout}
        (h : lineMark ∉ layout.lineTerminator.toList) : (g.fill c).write layout = String.join
          (((GapFragment.written g.lines).flatMap fun l => (l.fill c).cut).map
            layout.writeLine) := by
      rw [Fragment.write_eq h, GapFragment.lines_fill, GapFragment.fill_written hc,
        List.flatMap_map]
    refine .inr ⟨GapFragment.written g.lines, ?_, ?_, fun l _ k hk x hx => l.level_of_mem_cut hk hx⟩
    · intro layout hwidth h
      rw [print_eq_write hwidth, fragment, hmark]
      show Except.ok ((g.fill lineMark).write layout) = _
      rw [hwrite (by decide) h]
      simp only [GapLine.cut_fill_lineMark]
    · intro c hc hne layout hwidth h
      have hfilled : n.toDocument.filled c = n.toDocument.replaceBreaks c := if_neg hne
      rw [Document.print_eq_write hwidth, ← hfilled, hr c hc]
      show Except.ok ((g.fill c).write layout) = _
      rw [hwrite hc h]

-- A text block inside two blocks: only its first line is moved to the right.
example :
    (Document.node (.statement .block) .empty [.node (.statement .block) .empty
      [.node (.statement .expression) .empty [.node (.expression .literal)
        (Attributes.empty.insert Key.value (.text "\"\"\"\n  a\n\"\"\"")) []]]]).print ⟨4, "\n"⟩ =
      .ok "\x7b\n    \x7b\n        \"\"\"\n  a\n\"\"\";\n    \x7d\n\x7d\n" := by
  rfl

end Printer

/-- A compilation unit with one import. -/
def Builder.oneImport : Builder :=
  new.add 0 .importDecl (Attributes.empty.insert Key.name (.text "a"))

/-- The tree of `Builder.oneImport`. -/
def Tree.oneImport : Tree := ⟨Builder.oneImport.arena, Builder.oneImport.ordered, by decide⟩

theorem Tree.built_oneImport : oneImport.Built :=
  ⟨Builder.oneImport, .add (.start _ _) (by decide) _ _,
    Builder.finish_eq_ok_iff.2 ⟨by decide, rfl⟩⟩

theorem Tree.toDocument_oneImport : oneImport.root.toDocument =
    .node .compilationUnit .empty
      [.node .importDecl (Attributes.empty.insert Key.name (.text "a")) []] := by
  have hroot : oneImport.root.children = [⟨oneImport, 1, by decide⟩] := rfl
  have himport : (⟨oneImport, 1, by decide⟩ : Cursor).children = [] := rfl
  rw [Cursor.toDocument_of_children hroot, List.map_singleton,
    Cursor.toDocument_of_children himport]
  rfl

/-- No line of the import is indented, and with very wide levels it is not
    printed. -/
theorem Printer.wide_levels_break_off :
    Tree.oneImport.Built ∧ print {} Tree.oneImport.root = .ok "import a;\n" ∧
      print ⟨maxBytes + 1, "\n"⟩ Tree.oneImport.root = .error (.panicked .capacity) ∧
      ¬((∃ e, ∀ layout, print layout Tree.oneImport.root = .error e) ∨
        ∃ lines : List Line, ∀ layout : Layout, lineMark ∉ layout.lineTerminator.toList →
          print layout Tree.oneImport.root = .ok (String.join (lines.map layout.writeLine))) := by
  have hprinted : print {} Tree.oneImport.root = .ok "import a;\n" := by
    rw [print_eq, Tree.toDocument_oneImport]
    rfl
  have hwide : print ⟨maxBytes + 1, "\n"⟩ Tree.oneImport.root = .error (.panicked .capacity) :=
    print_of_wide (Nat.lt_succ_self maxBytes) _
  refine ⟨Tree.built_oneImport, hprinted, hwide, ?_⟩
  rintro (⟨e, he⟩ | ⟨lines, hlines⟩)
  · rw [he {}] at hprinted
    cases hprinted
  · rw [hlines ⟨maxBytes + 1, "\n"⟩ (by decide)] at hwide
    cases hwide

end JavaTree
