import JavaTree.Proofs.Print.Fragment
import Mathlib.Logic.Function.Iterate

/-! # Levels are indentation

    A fragment carries a level for each of its lines and leaves the width of a
    level open.  On texts the same is done by indenting every line that is not
    empty, once for each level (`Renderer.indent`, which is `Text.indent` on
    characters).  With a width given, a fragment is a text
    (`Fragment.text`), and what is done to fragments is done to texts:
    `text_append`, `text_nest` and `text_trimSemicolons`.

    `Fragment.nestedText` is a fragment some levels deeper, with its spaces;
    it is the text of the fragment indented that many times
    (`Fragment.nestedText_of_tidy`), and indenting many times is indenting
    once by a multiple of the width (`Text.indent_iterate`). -/

namespace JavaTree

namespace Text

/-! ## Section 1: Indenting texts -/

/-- Put spaces in front of a line, unless it is empty. -/
def indentLine (width : Nat) (l : List Char) : List Char :=
  if l = [] then [] else List.replicate width ' ' ++ l

/-- Indent every line of a text. -/
def indent (width : Nat) (cs : List Char) : List Char :=
  List.intercalate ['\n'] ((pieces '\n' cs).map (indentLine width))

theorem indentLine_of_ne_nil {l : List Char} (h : l ≠ []) (width : Nat) :
    indentLine width l = List.replicate width ' ' ++ l := if_neg h

theorem indentLine_zero (l : List Char) : indentLine 0 l = l := by
  by_cases h : l = []
  · rw [h]
    rfl
  · exact indentLine_of_ne_nil h 0

theorem indentLine_indentLine (width other : Nat) (l : List Char) :
    indentLine width (indentLine other l) = indentLine (width + other) l := by
  by_cases h : l = []
  · rw [h]
    rfl
  · rw [indentLine_of_ne_nil h other, indentLine_of_ne_nil h, indentLine_of_ne_nil (by simp [h]),
      ← List.append_assoc, List.replicate_append_replicate]

theorem newline_not_mem_indentLine {l : List Char} (h : '\n' ∉ l) (width : Nat) :
    '\n' ∉ indentLine width l := by
  unfold indentLine
  split
  · exact List.not_mem_nil
  · simp [h]

/-- Pieces that are joined are found again. -/
theorem pieces_intercalate {sep : Char} {ps : List (List Char)} (hne : ps ≠ [])
    (hps : ∀ p ∈ ps, sep ∉ p) : pieces sep (List.intercalate [sep] ps) = ps := by
  induction ps with
  | nil => exact absurd rfl hne
  | cons p ps ih =>
    have hp := hps p List.mem_cons_self
    cases ps with
    | nil => rw [List.intercalate_singleton, pieces_of_not_mem hp]
    | cons q qs =>
      have hrest := ih (List.cons_ne_nil q qs) fun r hr => hps r (List.mem_cons_of_mem p hr)
      rw [List.intercalate_cons_cons, List.append_assoc, List.singleton_append,
        pieces_append_cons hp, hrest]

theorem pieces_indent (width : Nat) (cs : List Char) :
    pieces '\n' (indent width cs) = (pieces '\n' cs).map (indentLine width) := by
  apply pieces_intercalate
  · simpa using pieces_ne_nil '\n' cs
  · intro p hp
    obtain ⟨l, hl, rfl⟩ := List.mem_map.1 hp
    exact newline_not_mem_indentLine (not_mem_of_mem_pieces hl) width

/-- Indenting many times is indenting once, further. -/
theorem indent_iterate (width levels : Nat) (cs : List Char) :
    (indent width)^[levels] cs = indent (width * levels) cs := by
  induction levels with
  | zero =>
    have hsame : indentLine 0 = id := funext indentLine_zero
    rw [Function.iterate_zero_apply, Nat.mul_zero, indent, hsame, List.map_id, intercalate_pieces]
  | succ levels ih =>
    rw [Function.iterate_succ_apply', ih, indent, pieces_indent, List.map_map, indent]
    congr 2
    funext l
    rw [Function.comp_apply, indentLine_indentLine]
    congr 1
    rw [Nat.mul_succ, Nat.add_comm]

/-- A text of one line. -/
theorem indent_of_not_mem {l : List Char} (hl : '\n' ∉ l) (width : Nat) :
    indent width l = indentLine width l := by
  rw [indent, pieces_of_not_mem hl, List.map_singleton, List.intercalate_singleton]

/-- A text is indented line by line. -/
theorem indent_append_cons {l : List Char} (hl : '\n' ∉ l) (width : Nat) (rest : List Char) :
    indent width (l ++ '\n' :: rest) = indentLine width l ++ '\n' :: indent width rest := by
  rw [indent, pieces_append_cons hl, List.map_cons, indent]
  cases hp : pieces '\n' rest with
  | nil => exact absurd hp (pieces_ne_nil '\n' rest)
  | cons p ps => simp [List.intercalate_cons_cons]

/-- Spaces, as characters. -/
theorem toList_spaces (width : Nat) : (copies width " ").toList = List.replicate width ' ' := by
  induction width with
  | zero => rfl
  | succ width ih =>
    rw [copies_succ, String.toList_append, ih, List.replicate_succ']
    rfl

end Text

/-- The unit of indentation is put in front of the lines of a text. -/
theorem Renderer.toList_indent (width : Nat) (s : String) :
    (indent (Text.copies width " ") s).toList = Text.indent width s.toList := by
  rw [indent, String.toList_intercalate, List.map_map, Text.indent]
  have hline (l : List Char) : (if l = [] then "" else
      Text.copies width " " ++ String.ofList l).toList = Text.indentLine width l := by
    unfold Text.indentLine
    split
    · rfl
    · rw [String.toList_append, Text.toList_spaces, String.toList_ofList]
  congr 2
  funext l
  exact hline l

/-! ## Section 2: Lines as text -/

namespace Line

/-- A line as text, with the spaces of its level. -/
def indented (width : Nat) (l : Line) : List Char :=
  List.replicate (width * l.level) ' ' ++ l.text.toList

/-- The line is one line, and stands at the left margin if it is empty. -/
structure Tidy (l : Line) : Prop where
  one_line : '\n' ∉ l.text.toList
  level_of_empty : l.text = "" → l.level = 0

theorem Tidy.deeper {l : Line} (h : l.Tidy) : l.deeper.Tidy := by
  unfold Line.deeper
  split
  · exact h
  · rename_i hne
    exact ⟨h.one_line, fun hempty => absurd hempty hne⟩

theorem newline_not_mem_indented {l : Line} (h : '\n' ∉ l.text.toList) (width : Nat) :
    '\n' ∉ l.indented width := by
  simp [indented, h]

/-- A tidy line one level deeper is the line indented. -/
theorem indented_deeper {l : Line} (h : l.Tidy) (width : Nat) :
    l.deeper.indented width = Text.indentLine width (l.indented width) := by
  by_cases hempty : l.text = ""
  · have hline : l.indented width = [] := by simp [indented, hempty, h.level_of_empty hempty]
    rw [Line.deeper, if_pos hempty, hline]
    rfl
  · have hline : l.indented width ≠ [] := by simp [indented, hempty]
    rw [Line.deeper, if_neg hempty, Text.indentLine_of_ne_nil hline, indented, indented,
      ← List.append_assoc, List.replicate_append_replicate, Nat.mul_succ, Nat.add_comm]

/-- Lines as text, one below the other. -/
def textOf (width : Nat) (ls : List Line) : List Char :=
  List.intercalate ['\n'] (ls.map (indented width))

/-- Lines as text, with a break behind each. -/
def textAbove (width : Nat) (ls : List Line) : List Char :=
  ls.flatMap fun l => l.indented width ++ ['\n']

theorem textOf_singleton (width : Nat) (l : Line) : textOf width [l] = l.indented width :=
  List.intercalate_singleton

theorem textOf_cons_cons (width : Nat) (l m : Line) (ls : List Line) :
    textOf width (l :: m :: ls) = l.indented width ++ '\n' :: textOf width (m :: ls) := by
  simp [textOf, List.intercalate_cons_cons]

/-- Only the last line has no break behind it. -/
theorem textOf_append_cons (width : Nat) (ls : List Line) (m : Line) (ms : List Line) :
    textOf width (ls ++ m :: ms) = textAbove width ls ++ textOf width (m :: ms) := by
  induction ls with
  | nil => rfl
  | cons l ls ih =>
    obtain ⟨k, ks, hk⟩ := List.exists_cons_of_ne_nil (l := ls ++ m :: ms) (by simp)
    rw [List.cons_append, hk, textOf_cons_cons, ← hk, ih, textAbove, textAbove, List.flatMap_cons,
      List.append_assoc, List.append_assoc, List.singleton_append]

/-- In front of a line's text there are spaces, or a break, or nothing. -/
theorem eq_of_mem_getLast?_above {width n : Nat} {ls : List Line} {c : Char}
    (h : c ∈ (textAbove width ls ++ List.replicate n ' ').getLast?) : c = '\n' ∨ c = ' ' := by
  cases n with
  | zero =>
    rw [List.replicate_zero, List.append_nil] at h
    rcases List.eq_nil_or_concat ls with rfl | ⟨ks, k, rfl⟩
    · cases h
    · rw [textAbove, List.concat_eq_append, List.flatMap_append, List.flatMap_singleton,
        ← List.append_assoc, List.getLast?_concat] at h
      exact .inl (Option.some.inj h).symm
  | succ n =>
    rw [List.replicate_succ', ← List.append_assoc, List.getLast?_concat] at h
    exact .inr (Option.some.inj h).symm

/-- Lines one level deeper are the text indented. -/
theorem textOf_map_deeper (width : Nat) {ls : List Line} (hne : ls ≠ []) (h : ∀ l ∈ ls, l.Tidy) :
    textOf width (ls.map Line.deeper) = Text.indent width (textOf width ls) := by
  have hpieces : Text.pieces '\n' (textOf width ls) = ls.map (indented width) := by
    apply Text.pieces_intercalate
    · simpa using hne
    · intro p hp
      obtain ⟨l, hl, rfl⟩ := List.mem_map.1 hp
      exact newline_not_mem_indented (h l hl).one_line width
  rw [Text.indent, hpieces, List.map_map, textOf, List.map_map]
  congr 1
  exact List.map_congr_left fun l hl => indented_deeper (h l hl) width

end Line

/-! ## Section 3: Fragments as text -/

namespace Fragment

/-- A fragment as text. -/
def text (width : Nat) (f : Fragment) : List Char := Line.textOf width f.lines

theorem indented_head (width : Nat) (s : String) : Line.indented width ⟨0, s⟩ = s.toList := by
  simp [Line.indented]

theorem lines_append (f g : Fragment) : (f ++ g).lines = continueWith g f.lines := by
  by_cases h : f.tail = []
  · rw [append_of_tail_nil h, lines, lines, h]
    rfl
  · obtain ⟨l, ls, hl⟩ := List.exists_cons_of_ne_nil h
    rw [append_of_tail_ne_nil h, lines, lines, hl, continueWith_cons_cons]

theorem lines_trimSemicolons (f : Fragment) :
    f.trimSemicolons.lines = withoutSemicolons f.lines := by
  obtain ⟨head, tail⟩ := f
  cases tail with
  | nil => rfl
  | cons l ls => rfl

theorem lines_ne_nil (f : Fragment) : f.lines ≠ [] := List.cons_ne_nil _ _

theorem exists_last (f : Fragment) : ∃ last, f.lines = f.lines.dropLast ++ [last] :=
  ⟨_, (List.dropLast_concat_getLast f.lines_ne_nil).symm⟩

/-- A fragment behind another goes on on the last line of that one. -/
theorem lines_append_of_last {f : Fragment} {last : Line} (h : f.lines = f.lines.dropLast ++ [last])
    (g : Fragment) :
    (f ++ g).lines = f.lines.dropLast ++ ⟨last.level, last.text ++ g.head⟩ :: g.tail := by
  rw [lines_append]
  exact (congrArg (continueWith g) h).trans
    (continueWith_append g f.lines.dropLast (List.cons_ne_nil last []))

theorem text_append (width : Nat) (f g : Fragment) :
    (f ++ g).text width = f.text width ++ g.text width := by
  obtain ⟨last, hlast⟩ := f.exists_last
  have happend := lines_append_of_last hlast g
  have hline : Line.indented width ⟨last.level, last.text ++ g.head⟩ =
      last.indented width ++ g.head.toList := by
    simp [Line.indented]
  rw [text, text, text, happend, Line.textOf_append_cons, hlast, Line.textOf_append_cons,
    List.dropLast_concat, List.append_assoc, Line.textOf_singleton]
  congr 1
  have hg : g.lines = ⟨0, g.head⟩ :: g.tail := rfl
  rw [hg]
  cases g.tail with
  | nil => rw [Line.textOf_singleton, Line.textOf_singleton, hline, indented_head]
  | cons m ms =>
    rw [Line.textOf_cons_cons, Line.textOf_cons_cons, hline, indented_head, List.append_assoc]

theorem text_ofText (width : Nat) (s : String) : (ofText s).text width = s.toList := by
  have hline (p : List Char) : Line.indented width ⟨0, String.ofList p⟩ = p := by
    rw [indented_head, String.toList_ofList]
  rw [text, lines_ofText, Line.textOf, List.map_map]
  simp only [Function.comp_def, hline, List.map_id']
  exact Text.intercalate_pieces '\n' s.toList

/-- What is nested below a fragment is the text of the body, indented. -/
theorem text_nest (width : Nat) (f : Fragment) {body : Fragment} (h : ∀ l ∈ body.lines, l.Tidy) :
    (f.nest body).text width =
      f.text width ++ '\n' :: Text.indent width (body.text width) := by
  have hdeeper : body.lines.map Line.deeper =
      Line.deeper ⟨0, body.head⟩ :: body.tail.map Line.deeper := rfl
  have hlines : (f.nest body).lines = f.lines ++ body.lines.map Line.deeper := rfl
  obtain ⟨last, hlast⟩ := f.exists_last
  rw [text, hlines, text, text, ← Line.textOf_map_deeper width body.lines_ne_nil h, hlast,
    Line.textOf_append_cons, List.append_assoc, List.singleton_append, hdeeper,
    Line.textOf_append_cons, Line.textOf_cons_cons, Line.textOf_singleton, List.append_assoc]

/-- Only a fragment without lines and text is the empty text. -/
theorem text_eq_nil_iff {width : Nat} {f : Fragment} : f.text width = [] ↔ f.isEmpty := by
  obtain ⟨head, tail⟩ := f
  cases tail with
  | nil => simp [text, lines, isEmpty, indented_head, Line.textOf_singleton]
  | cons l ls => simp [text, lines, isEmpty, Line.textOf_cons_cons]

/-- A text begins with the first line of the fragment, or with the break
    behind it. -/
theorem head?_text (width : Nat) (f : Fragment) :
    (f.text width).head? = f.firstChar? ∨
      (f.text width).head? = some '\n' ∧ f.firstChar? = none := by
  obtain ⟨head, tail⟩ := f
  rw [text, lines, firstChar?]
  cases tail with
  | nil => simp [indented_head, Line.textOf_singleton]
  | cons l ls =>
    rw [Line.textOf_cons_cons, indented_head]
    cases head.toList with
    | nil => exact .inr ⟨rfl, rfl⟩
    | cons c cs => exact .inl rfl

/-- Text that does not end in a semicolon stays in front of the rest. -/
theorem toList_dropSemicolons_append {xs : List Char} (h : ∀ c ∈ xs.getLast?, c ≠ ';')
    (ys : List Char) : (Text.dropSemicolons (String.ofList (xs ++ ys))).toList =
      xs ++ (Text.dropSemicolons (String.ofList ys)).toList := by
  have hkept : xs.reverse.dropWhile (· = ';') = xs.reverse := by
    cases hrev : xs.reverse with
    | nil => rfl
    | cons c cs =>
      have hlast : xs.getLast? = some c := by rw [← List.head?_reverse, hrev, List.head?_cons]
      exact List.dropWhile_cons_of_neg (by simpa using h c hlast)
  simp only [Text.dropSemicolons, String.toList_ofList, List.reverse_append, List.dropWhile_append]
  split
  · rename_i hnil
    rw [hkept, List.reverse_reverse, List.isEmpty_iff.1 hnil, List.reverse_nil, List.append_nil]
  · rw [List.reverse_append, List.reverse_reverse]

theorem withoutSemicolons_concat (ls : List Line) (l : Line) :
    withoutSemicolons (ls ++ [l]) = ls ++ [{ l with text := Text.dropSemicolons l.text }] := by
  induction ls with
  | nil => rfl
  | cons k ls ih =>
    obtain ⟨m, ms, hm⟩ := List.exists_cons_of_ne_nil (l := ls ++ [l]) (by simp)
    rw [List.cons_append, hm, withoutSemicolons, ← hm, ih]
    · rfl
    · exact List.cons_ne_nil m ms

/-- The semicolons at the end of a fragment are at the end of its text. -/
theorem text_trimSemicolons (width : Nat) (f : Fragment) :
    f.trimSemicolons.text width =
      (Text.dropSemicolons (String.ofList (f.text width))).toList := by
  obtain ⟨last, hlast⟩ := f.exists_last
  have hfront : ∀ c ∈ (Line.textAbove width f.lines.dropLast ++
      List.replicate (width * last.level) ' ').getLast?, c ≠ ';' := by
    intro c hc
    rcases Line.eq_of_mem_getLast?_above hc with rfl | rfl <;> decide
  have htext (l : Line) : Line.textOf width (f.lines.dropLast ++ [l]) =
      Line.textAbove width f.lines.dropLast ++ List.replicate (width * l.level) ' ' ++
        l.text.toList := by
    rw [Line.textOf_append_cons, Line.textOf_singleton, Line.indented, List.append_assoc]
  have hself : f.text width = _ := (congrArg (Line.textOf width) hlast).trans (htext last)
  rw [hself, toList_dropSemicolons_append hfront, text, lines_trimSemicolons, hlast,
    withoutSemicolons_concat, List.dropLast_concat, htext, String.ofList_toList]

/-! ## Section 4: Tidy fragments -/

/-- Every line of the fragment is tidy. -/
def Tidy (f : Fragment) : Prop := ∀ l ∈ f.lines, l.Tidy

/-- Every line of the fragment is one line, and all but the last are tidy. -/
structure TidyAbove (f : Fragment) : Prop where
  one_line : ∀ l ∈ f.lines, '\n' ∉ l.text.toList
  above : ∀ l ∈ f.lines.dropLast, l.Tidy

theorem tidy_ofText (s : String) : (ofText s).Tidy := by
  intro l hl
  rw [lines_ofText, List.mem_map] at hl
  obtain ⟨p, hp, rfl⟩ := hl
  refine ⟨?_, fun _ => rfl⟩
  rw [String.toList_ofList]
  exact Text.not_mem_of_mem_pieces hp

theorem Tidy.nest {f body : Fragment} (hf : f.Tidy) (hb : body.Tidy) : (f.nest body).Tidy := by
  intro l hl
  have hlines : (f.nest body).lines = f.lines ++ body.lines.map Line.deeper := rfl
  rw [hlines, List.mem_append, List.mem_map] at hl
  rcases hl with hl | ⟨m, hm, rfl⟩
  · exact hf l hl
  · exact (hb m hm).deeper

theorem Tidy.above {f : Fragment} (h : f.Tidy) : f.TidyAbove :=
  ⟨fun l hl => (h l hl).one_line, fun l hl => h l (List.dropLast_subset _ hl)⟩

/-- With text behind it the last line is not empty. -/
theorem TidyAbove.append {f g : Fragment} (hf : f.TidyAbove) (hg : g.Tidy) (hne : g.head ≠ "") :
    (f ++ g).Tidy := by
  obtain ⟨last, hlast⟩ := f.exists_last
  intro l hl
  rw [lines_append_of_last hlast, List.mem_append, List.mem_cons] at hl
  rcases hl with hl | rfl | hl
  · exact hf.above l hl
  · refine ⟨?_, fun hempty => absurd (String.append_eq_empty_iff.1 hempty).2 hne⟩
    rw [String.toList_append, List.mem_append, not_or]
    have hmem : last ∈ f.lines := hlast ▸ List.mem_concat_self
    exact ⟨hf.one_line last hmem, (hg ⟨0, g.head⟩ List.mem_cons_self).one_line⟩
  · exact hg l (List.mem_cons_of_mem _ hl)

theorem Tidy.append {f g : Fragment} (hf : f.Tidy) (hg : g.Tidy) : (f ++ g).Tidy := by
  by_cases hne : g.head = ""
  · -- The last line keeps its text.
    obtain ⟨last, hlast⟩ := f.exists_last
    intro l hl
    rw [lines_append_of_last hlast, hne, String.append_empty, List.mem_append, List.mem_cons] at hl
    rcases hl with hl | rfl | hl
    · exact hf l (List.dropLast_subset _ hl)
    · exact hf last (hlast ▸ List.mem_concat_self)
    · exact hg l (List.mem_cons_of_mem _ hl)
  · exact hf.above.append hg hne

theorem Tidy.append_above {f g : Fragment} (hf : f.Tidy) (hg : g.TidyAbove) :
    (f ++ g).TidyAbove := by
  obtain ⟨last, hlast⟩ := f.exists_last
  have hmem : last ∈ f.lines := hlast ▸ List.mem_concat_self
  have hline : '\n' ∉ (last.text ++ g.head).toList := by
    rw [String.toList_append, List.mem_append, not_or]
    exact ⟨(hf last hmem).one_line, hg.one_line ⟨0, g.head⟩ List.mem_cons_self⟩
  constructor
  · intro l hl
    rw [lines_append_of_last hlast, List.mem_append, List.mem_cons] at hl
    rcases hl with hl | rfl | hl
    · exact (hf l (List.dropLast_subset _ hl)).one_line
    · exact hline
    · exact hg.one_line l (List.mem_cons_of_mem _ hl)
  · intro l hl
    rw [lines_append_of_last hlast, List.dropLast_append_cons, List.mem_append] at hl
    rcases hl with hl | hl
    · exact hf l (List.dropLast_subset _ hl)
    · have habove := hg.above
      rw [lines] at habove
      cases htail : g.tail with
      | nil =>
        rw [htail] at hl
        cases hl
      | cons m ms =>
        rw [htail] at hl habove
        rcases List.mem_cons.1 hl with rfl | hl
        · -- What goes on on the line leaves its level alone.
          refine ⟨hline, fun hempty => (hf last hmem).level_of_empty ?_⟩
          exact (String.append_eq_empty_iff.1 hempty).1
        · exact habove l (List.mem_cons_of_mem _ hl)

theorem Tidy.trimSemicolons {f : Fragment} (h : f.Tidy) : f.trimSemicolons.TidyAbove := by
  obtain ⟨last, hlast⟩ := f.exists_last
  have hlines : f.trimSemicolons.lines =
      f.lines.dropLast ++ [{ last with text := Text.dropSemicolons last.text }] := by
    rw [lines_trimSemicolons, ← withoutSemicolons_concat]
    exact congrArg withoutSemicolons hlast
  have hsublist : (Text.dropSemicolons last.text).toList ⊆ last.text.toList := by
    intro c hc
    rw [Text.dropSemicolons, String.toList_ofList, List.mem_reverse] at hc
    exact List.mem_reverse.1 ((List.dropWhile_sublist _).subset hc)
  constructor
  · intro l hl
    rw [hlines, List.mem_append, List.mem_singleton] at hl
    rcases hl with hl | rfl
    · exact (h l (List.dropLast_subset _ hl)).one_line
    · have hmem : last ∈ f.lines := hlast ▸ List.mem_concat_self
      exact fun hfeed => (h last hmem).one_line (hsublist hfeed)
  · intro l hl
    rw [hlines, List.dropLast_concat] at hl
    exact h l (List.dropLast_subset _ hl)

/-! ## Section 5: Fragments some levels deeper -/

/-- A fragment as text, some levels deeper. -/
def nestedText (width levels : Nat) (f : Fragment) : List Char :=
  List.intercalate ['\n'] (f.lines.map fun l => (Line.deeper^[levels] l).indented width)

/-- Setting a fragment deeper is indenting its text, once for each level. -/
theorem nestedText_of_tidy {f : Fragment} (h : f.Tidy) (width levels : Nat) :
    f.nestedText width levels = (Text.indent width)^[levels] (f.text width) := by
  have htext (k : Nat) :
      f.nestedText width k = Line.textOf width (f.lines.map Line.deeper^[k]) := by
    rw [nestedText, Line.textOf, List.map_map]
    rfl
  have htidy (k : Nat) : ∀ l ∈ f.lines.map Line.deeper^[k], l.Tidy := by
    induction k with
    | zero =>
      rw [Function.iterate_zero, List.map_id]
      exact h
    | succ k ih =>
      rw [Function.iterate_succ', ← List.map_map]
      intro l hl
      obtain ⟨m, hm, rfl⟩ := List.mem_map.1 hl
      exact (ih m hm).deeper
  induction levels with
  | zero =>
    rw [htext, Function.iterate_zero, List.map_id]
    rfl
  | succ levels ih =>
    have hne : f.lines.map Line.deeper^[levels] ≠ [] := by simpa using f.lines_ne_nil
    rw [htext, Function.iterate_succ', ← List.map_map,
      Line.textOf_map_deeper width hne (htidy levels), ← htext, ih, Function.iterate_succ_apply']

/-- Setting a text deeper is indenting it. -/
theorem nestedText_ofText (width levels : Nat) (s : String) :
    (ofText s).nestedText width levels = (Text.indent width)^[levels] s.toList := by
  rw [nestedText_of_tidy (tidy_ofText s), text_ofText]

end Fragment

end JavaTree
