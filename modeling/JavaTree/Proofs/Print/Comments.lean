import JavaTree.Proofs.Java.Comment
import JavaTree.Proofs.Print.Indentation
import JavaTree.Proofs.Print.Operators
import JavaTree.Proofs.Tree.RoundTrip
import Mathlib.Data.List.DropRight

/-! # Comments keep to themselves

    The text of a comment between its delimiters is laid out line by line: the
    first line loses white space at its end, the others at both ends and are
    set off by a space (`Template.spread`).  Indenting the comment puts more
    space in front of the lines and nothing else
    (`Template.indent_delimited`), and laying out what is laid out already
    takes it off again.  So a comment that is formatted once more, from
    whatever depth, stays as it is (`Template.delimited_of_indented`).

    Neither layout nor indentation can make a closer, nor take one apart
    (`Template.closer_infix_spread_iff`).  So it can be told from the content
    alone whether the printed comment is a single comment of Java
    (`CommentKind.Encloses`, `Printer.comment_is_one_comment_iff`). -/

namespace JavaTree

open Java

/-! ## Section 1: Trimming -/

namespace Text

/-- What trimming takes off at the end is white space. -/
theorem exists_trimEnd_append (cs : List Char) :
    ∃ blanks, trimEnd cs ++ blanks = cs ∧ ∀ c ∈ blanks, isBlank c = true := by
  refine ⟨(cs.reverse.takeWhile isBlank).reverse, ?_, ?_⟩
  · rw [trimEnd, ← List.reverse_append, List.takeWhile_append_dropWhile, List.reverse_reverse]
  · intro c hc
    exact List.mem_takeWhile_imp (List.mem_reverse.1 hc)

theorem not_mem_trimEnd {cs : List Char} {c : Char} (h : c ∉ cs) : c ∉ trimEnd cs := by
  obtain ⟨blanks, hcs, -⟩ := exists_trimEnd_append cs
  intro hmem
  rw [← hcs] at h
  exact h (List.mem_append_left blanks hmem)

theorem not_mem_trim {cs : List Char} {c : Char} (h : c ∉ cs) : c ∉ trim cs :=
  not_mem_trimEnd fun hmem => h ((List.dropWhile_suffix isBlank).subset hmem)

theorem trimEnd_trimEnd (cs : List Char) : trimEnd (trimEnd cs) = trimEnd cs :=
  List.rdropWhile_idempotent isBlank cs

theorem getLast?_trimEnd {cs : List Char} {c : Char} (h : (trimEnd cs).getLast? = some c) :
    isBlank c = false := by
  obtain ⟨front, hfront⟩ := List.getLast?_eq_some_iff.1 h
  have hne : trimEnd cs ≠ [] := by simp [hfront]
  have hlast := List.rdropWhile_last_not isBlank cs hne
  have hc : (trimEnd cs).getLast hne = c := by simp [hfront]
  rw [show (List.rdropWhile isBlank cs).getLast hne = c from hc] at hlast
  simpa using hlast

/-- A character that is not white space is first after trimming the end
    exactly if it was before. -/
theorem head?_trimEnd {cs : List Char} {c : Char} (hc : isBlank c = false) :
    (trimEnd cs).head? = some c ↔ cs.head? = some c := by
  obtain ⟨blanks, hcs, hblanks⟩ := exists_trimEnd_append cs
  cases hne : trimEnd cs with
  | nil =>
    rw [hne, List.nil_append] at hcs
    refine ⟨nofun, fun h => ?_⟩
    rw [← hcs] at h
    rw [hblanks c (List.mem_of_mem_head? h)] at hc
    cases hc
  | cons d ds =>
    rw [hne] at hcs
    rw [← hcs]
    rfl

theorem dropWhile_trimEnd {cs : List Char} (h : cs.dropWhile isBlank = cs) :
    (trimEnd cs).dropWhile isBlank = trimEnd cs := by
  cases hne : trimEnd cs with
  | nil => rfl
  | cons c front =>
    obtain ⟨blanks, hcs, -⟩ := exists_trimEnd_append cs
    rw [hne] at hcs
    cases hc : isBlank c with
    | false => exact List.dropWhile_cons_of_neg (by simp [hc])
    | true =>
      -- Then the text itself would have been shortened.
      have hshort := congrArg List.length h
      rw [← hcs, List.cons_append, List.dropWhile_cons_of_pos hc, List.length_cons] at hshort
      have hle := List.length_dropWhile_le isBlank (front ++ blanks)
      omega

theorem trim_trim (cs : List Char) : trim (trim cs) = trim cs := by
  have hfront : (cs.dropWhile isBlank).dropWhile isBlank = cs.dropWhile isBlank :=
    List.dropWhile_idempotent isBlank cs
  rw [trim, trim, dropWhile_trimEnd hfront, trimEnd_trimEnd]

theorem eq_space_of_mem {count : Nat} {c : Char} (h : c ∈ List.replicate count ' ' ++ [' ']) :
    c = ' ' := by
  rcases List.mem_append.1 h with hc | hc
  · exact (List.mem_replicate.1 hc).2
  · exact List.mem_singleton.1 hc

/-- White space in front of a text that is trimmed goes away again. -/
theorem trim_spaces_append (count : Nat) (cs : List Char) :
    trim (List.replicate count ' ' ++ ' ' :: trim cs) = trim cs := by
  calc trim (List.replicate count ' ' ++ ' ' :: trim cs)
      = trim (List.replicate (count + 1) ' ' ++ trim cs ++ List.replicate 0 ' ') := by
        simp [List.replicate_succ']
    _ = trim (trim cs) := trim_spaces (count + 1) 0 (trim cs)
    _ = trim cs := trim_trim cs

end Text

/-! ## Section 2: Where a closer can be -/

section Infix

variable {α : Type} {p : List α}

/-- Across a character that it does not hold nothing is found. -/
theorem infix_append_cons_iff (hne : p ≠ []) {l r : List α} {c : α} (hc : c ∉ p) :
    p <:+: l ++ c :: r ↔ p <:+: l ∨ p <:+: r := by
  constructor
  · rintro ⟨front, back, h⟩
    rw [List.append_assoc] at h
    rcases List.append_eq_append_iff.1 h with ⟨m, hl, hrest⟩ | ⟨m, hfront, hrest⟩
    · -- It begins on the left; it is over before the character comes.
      rcases List.append_eq_append_iff.1 hrest with ⟨k, hm, -⟩ | ⟨k, hp, hk⟩
      · exact .inl ⟨front, k, by rw [hl, hm, List.append_assoc]⟩
      · cases k with
        | nil => exact .inl ⟨front, [], by rw [hl, hp]; simp⟩
        | cons d k =>
          obtain ⟨rfl, -⟩ := List.cons.inj hk
          exact absurd (hp ▸ List.mem_append_right m List.mem_cons_self) hc
    · cases m with
      | nil =>
        obtain ⟨d, p, rfl⟩ := List.exists_cons_of_ne_nil hne
        obtain ⟨rfl, -⟩ := List.cons.inj hrest
        exact absurd List.mem_cons_self hc
      | cons d m =>
        obtain ⟨-, hr⟩ := List.cons.inj hrest
        refine .inr ⟨m, back, ?_⟩
        rw [List.append_assoc]
        exact hr.symm
  · rintro (h | h)
    · exact h.trans (List.prefix_append l _).isInfix
    · exact h.trans ((List.suffix_cons c r).trans (List.suffix_append l _)).isInfix

/-- In front of characters that it does not hold, and behind them, the same
    is found. -/
theorem infix_append_right_iff (hne : p ≠ []) {l r : List α} (hr : ∀ c ∈ r, c ∉ p) :
    p <:+: l ++ r ↔ p <:+: l := by
  cases r with
  | nil => rw [List.append_nil]
  | cons c r =>
    rw [infix_append_cons_iff hne (hr c List.mem_cons_self)]
    refine or_iff_left fun h => ?_
    obtain ⟨d, p, rfl⟩ := List.exists_cons_of_ne_nil hne
    exact hr d (List.mem_cons_of_mem c (h.subset List.mem_cons_self)) List.mem_cons_self

theorem infix_append_left_iff (hne : p ≠ []) {l r : List α} (hl : ∀ c ∈ l, c ∉ p) :
    p <:+: l ++ r ↔ p <:+: r := by
  induction l with
  | nil => rfl
  | cons c l ih =>
    have hstep := infix_append_cons_iff hne (l := []) (r := l ++ r) (hl c List.mem_cons_self)
    rw [List.nil_append] at hstep
    rw [List.cons_append, hstep, ih fun d hd => hl d (List.mem_cons_of_mem c hd)]
    refine or_iff_right fun h => hne (List.infix_nil.1 h)

/-- Putting lines below each other makes nothing that none of them holds. -/
theorem infix_lines_iff (hne : p ≠ []) {sep : α} (hsep : sep ∉ p) (l : List α)
    (ls : List (List α)) :
    (p <:+: l ++ ls.flatMap fun m => sep :: m) ↔ p <:+: l ∨ ∃ m ∈ ls, p <:+: m := by
  induction ls generalizing l with
  | nil => simp
  | cons m ls ih =>
    rw [List.flatMap_cons, List.cons_append, infix_append_cons_iff hne hsep, ih m]
    simp

end Infix

theorem Text.infix_trimEnd_iff {p : List Char} (hne : p ≠ []) (hp : ∀ c ∈ p, isBlank c = false)
    (cs : List Char) : p <:+: trimEnd cs ↔ p <:+: cs := by
  obtain ⟨blanks, hcs, hblanks⟩ := exists_trimEnd_append cs
  have hdisjoint : ∀ c ∈ blanks, c ∉ p := by
    intro c hc hmem
    exact absurd (hp c hmem) (by simp [hblanks c hc])
  rw [← infix_append_right_iff hne (l := trimEnd cs) hdisjoint, hcs]

theorem Text.infix_trim_iff {p : List Char} (hne : p ≠ []) (hp : ∀ c ∈ p, isBlank c = false)
    (cs : List Char) : p <:+: trim cs ↔ p <:+: cs := by
  have hdisjoint : ∀ c ∈ cs.takeWhile isBlank, c ∉ p := by
    intro c hc hmem
    exact absurd (hp c hmem) (by simp [List.mem_takeWhile_imp hc])
  rw [trim, infix_trimEnd_iff hne hp, ← infix_append_left_iff hne hdisjoint,
    List.takeWhile_append_dropWhile]

/-! ## Section 3: Comments line by line -/

/-- A text is a first line and further ones below it. -/
structure Text.HasLines (cs first : List Char) (rest : List (List Char)) : Prop where
  pieces : pieces '\n' cs = first :: rest
  first : '\n' ∉ first
  further : ∀ l ∈ rest, '\n' ∉ l

theorem Text.exists_hasLines (cs : List Char) : ∃ first rest, HasLines cs first rest := by
  cases hp : Text.pieces '\n' cs with
  | nil => exact absurd hp (pieces_ne_nil '\n' cs)
  | cons first rest =>
    have hmem : ∀ l ∈ first :: rest, '\n' ∉ l := fun l hl => not_mem_of_mem_pieces (hp ▸ hl)
    exact ⟨first, rest, hp, hmem first List.mem_cons_self,
      fun l hl => hmem l (List.mem_cons_of_mem first hl)⟩

theorem Text.HasLines.eq_flatMap {cs first : List Char} {rest : List (List Char)}
    (h : HasLines cs first rest) : cs = first ++ rest.flatMap fun l => '\n' :: l := by
  have hjoin : ∀ (l : List Char) (ls : List (List Char)),
      List.intercalate ['\n'] (l :: ls) = l ++ ls.flatMap fun m => '\n' :: m := by
    intro l ls
    induction ls generalizing l with
    | nil => rw [List.intercalate_singleton, List.flatMap_nil, List.append_nil]
    | cons m ls ih =>
      rw [List.intercalate_cons_cons, ih m, List.flatMap_cons, List.append_assoc,
        List.singleton_append, List.cons_append]
  rw [← hjoin, ← h.pieces, intercalate_pieces]

namespace Template

/-- A further line of a comment, with spaces in front. -/
def furtherLine (width : Nat) (l : List Char) : List Char :=
  List.replicate width ' ' ++ ' ' :: Text.trim l

/-- The text between the delimiters of a comment, its further lines with
    spaces in front. -/
def spread (width : Nat) (content : List Char) : List Char :=
  match Text.pieces '\n' content with
  | [] => []
  | first :: rest => Text.trimEnd first ++ rest.flatMap fun l => '\n' :: furtherLine width l

theorem spread_eq {content first : List Char} {rest : List (List Char)}
    (h : Text.HasLines content first rest) (width : Nat) :
    spread width content =
      Text.trimEnd first ++ rest.flatMap fun l => '\n' :: furtherLine width l := by
  rw [spread, h.pieces]

/-- A comment is its delimiters around its lines. -/
theorem toList_delimited (opening content closing : String) :
    (delimited opening content closing).toList =
      opening.toList ++ spread 0 content.toList ++ closing.toList := by
  have hlines : ∀ ls : List (List Char),
      (String.join (ls.map fun l => "\n " ++ String.ofList (Text.trim l))).toList =
        ls.flatMap fun l => '\n' :: furtherLine 0 l := by
    intro ls
    induction ls with
    | nil => rfl
    | cons l ls ih =>
      rw [List.map_cons, String.join_cons, String.toList_append, ih, List.flatMap_cons,
        String.toList_append, String.toList_ofList (l := Text.trim l)]
      rfl
  obtain ⟨first, rest, hcontent⟩ := Text.exists_hasLines content.toList
  rw [spread_eq hcontent, delimited, hcontent.pieces]
  simp only [String.toList_append, String.toList_ofList, hlines, List.append_assoc]

theorem newline_not_mem_furtherLine {l : List Char} (h : '\n' ∉ l) (width : Nat) :
    '\n' ∉ furtherLine width l := by
  simp [furtherLine, Text.not_mem_trim h]

/-- The lines that were put together are found again. -/
theorem hasLines_spread {content first : List Char} {rest : List (List Char)}
    (h : Text.HasLines content first rest) (width : Nat) :
    Text.HasLines (spread width content) (Text.trimEnd first) (rest.map (furtherLine width)) := by
  have hjoin : ∀ (l : List Char) (ls : List (List Char)), '\n' ∉ l → (∀ m ∈ ls, '\n' ∉ m) →
      Text.pieces '\n' (l ++ ls.flatMap fun m => '\n' :: furtherLine width m) =
        l :: ls.map (furtherLine width) := by
    intro l ls hl hls
    induction ls generalizing l with
    | nil => rw [List.flatMap_nil, List.append_nil, Text.pieces_of_not_mem hl, List.map_nil]
    | cons m ls ih =>
      have hm := newline_not_mem_furtherLine (hls m List.mem_cons_self) width
      rw [List.flatMap_cons, List.cons_append, Text.pieces_append_cons hl,
        ih _ hm fun k hk => hls k (List.mem_cons_of_mem m hk), List.map_cons]
  have hfirst := Text.not_mem_trimEnd h.first
  refine ⟨?_, hfirst, ?_⟩
  · rw [spread_eq h]
    exact hjoin _ rest hfirst h.further
  · intro l hl
    obtain ⟨m, hm, rfl⟩ := List.mem_map.1 hl
    exact newline_not_mem_furtherLine (h.further m hm) width

/-- Laying out again takes the spaces off. -/
theorem spread_spread (width : Nat) (content : List Char) :
    spread 0 (spread width content) = spread 0 content := by
  obtain ⟨first, rest, hcontent⟩ := Text.exists_hasLines content
  rw [spread_eq (hasLines_spread hcontent width), spread_eq hcontent, Text.trimEnd_trimEnd,
    List.flatMap_map]
  congr 2
  funext l
  rw [furtherLine, furtherLine, furtherLine, Text.trim_spaces_append]

/-! ## Section 4: Formatting once more -/

/-- Indenting the lines of a comment puts spaces in front of each. -/
theorem indent_lines {first closing : List Char} {rest : List (List Char)} (hne : first ≠ [])
    (hfirst : '\n' ∉ first) (hrest : ∀ l ∈ rest, '\n' ∉ l) (hclosing : '\n' ∉ closing)
    (width : Nat) :
    Text.indent width (first ++ (rest.flatMap fun l => '\n' :: furtherLine 0 l) ++ closing) =
      List.replicate width ' ' ++ first ++ (rest.flatMap fun l => '\n' :: furtherLine width l)
        ++ closing := by
  induction rest generalizing first with
  | nil =>
    have hline : '\n' ∉ first ++ closing := by simp [hfirst, hclosing]
    rw [List.flatMap_nil, List.flatMap_nil, List.append_nil, List.append_nil,
      Text.indent_of_not_mem hline, Text.indentLine_of_ne_nil (by simp [hne]), List.append_assoc]
  | cons l rest ih =>
    have hl := newline_not_mem_furtherLine (hrest l List.mem_cons_self) 0
    have hne' : furtherLine 0 l ≠ [] := by simp [furtherLine]
    have hnext := ih hne' hl fun m hm => hrest m (List.mem_cons_of_mem l hm)
    have hset : List.replicate width ' ' ++ furtherLine 0 l = furtherLine width l := rfl
    rw [List.flatMap_cons, List.flatMap_cons, List.cons_append, List.cons_append,
      List.append_assoc first, List.cons_append, Text.indent_append_cons hfirst,
      Text.indentLine_of_ne_nil hne, hnext, hset]
    simp only [List.append_assoc, List.cons_append]

/-- Indenting a comment moves its delimiters and widens its lines. -/
theorem indent_delimited {opening closing : String} (hne : opening.toList ≠ [])
    (hopening : '\n' ∉ opening.toList) (hclosing : '\n' ∉ closing.toList) (width : Nat)
    (content : String) :
    Text.indent width (delimited opening content closing).toList =
      List.replicate width ' ' ++ opening.toList ++ spread width content.toList
        ++ closing.toList := by
  obtain ⟨first, rest, hcontent⟩ := Text.exists_hasLines content.toList
  have hfirst : '\n' ∉ opening.toList ++ Text.trimEnd first := by
    simp [hopening, Text.not_mem_trimEnd hcontent.first]
  have hindent := indent_lines (by simp [hne]) hfirst hcontent.further hclosing width
  rw [toList_delimited, spread_eq hcontent, spread_eq hcontent, ← List.append_assoc, hindent]
  simp only [List.append_assoc]

/-- A comment that was formatted before and then set any number of levels
    deeper is formatted to what it was: what stands between its delimiters
    there, formatted anew, gives the same comment. -/
theorem delimited_of_indented (opening content : String) (hopening : opening ∈ ["/*", "/**"])
    (width levels : Nat) :
    let formatted := delimited opening content "*/"
    let deeper := (Text.indent width)^[levels] formatted.toList
    (Fragment.ofText formatted).nestedText width levels = deeper ∧
      ∃ between : String,
        deeper = List.replicate (width * levels) ' ' ++ opening.toList ++ between.toList
          ++ "*/".toList ∧
        delimited opening between "*/" = formatted := by
  intro formatted deeper
  have hplain : opening.toList ≠ [] ∧ '\n' ∉ opening.toList := by
    revert opening
    decide
  refine ⟨Fragment.nestedText_ofText width levels formatted,
    String.ofList (spread (width * levels) content.toList), ?_, ?_⟩
  · show (Text.indent width)^[levels] formatted.toList = _
    rw [Text.indent_iterate, indent_delimited hplain.1 hplain.2 (by decide),
      String.toList_ofList (l := spread _ _)]
  · rw [← String.toList_inj, toList_delimited, String.toList_ofList, spread_spread,
      ← toList_delimited]

/-- A comment with a blank line, indented three times. -/
theorem delimited_of_indented_blankLine :
    "/**" ∈ ["/*", "/**"] ∧
      (Text.indent 2)^[3] (delimited "/**" "a\n\n   b " "*/").toList =
        "      /**a\n       \n       b*/".toList ∧
      delimited "/**" "a\n       \n       b" "*/" = delimited "/**" "a\n\n   b " "*/" := by
  obtain ⟨-, between, hdeeper, hsame⟩ :=
    delimited_of_indented "/**" "a\n\n   b " (by decide) 2 3
  have htext : (Text.indent 2)^[3] (delimited "/**" "a\n\n   b " "*/").toList =
      "      /**a\n       \n       b*/".toList := by decide
  have hbetween : between = "a\n       \n       b" := by
    rw [htext] at hdeeper
    have hsplit : "      /**".toList ++ "a\n       \n       b".toList ++ "*/".toList =
        "      /**".toList ++ between.toList ++ "*/".toList := hdeeper
    exact String.toList_inj.1
      (List.append_cancel_left (List.append_cancel_right hsplit)).symm
  exact ⟨by decide, htext, hbetween ▸ hsame⟩

end Template

/-! ## Section 5: Comments that close where they end -/

/-- Whether the content can stand in a comment of the kind: on a line, or
    without a closer, not even one made with the last asterisk of the
    opening. -/
def CommentKind.Encloses : CommentKind → List Char → Prop
  | .line, content => ∀ c ∈ Text.trimEnd content, isLineEnd c = false
  | .block, content => ¬closer <:+: content
  | .javadoc, content => ¬closer <:+: content ∧ content.head? ≠ some '/'

namespace Template

/-- Laying out and indenting makes no closer and takes none apart. -/
theorem closer_infix_spread_iff (width : Nat) (content : List Char) :
    closer <:+: spread width content ↔ closer <:+: content := by
  have hne : closer ≠ [] := by decide
  have hfeed : '\n' ∉ closer := by decide
  have hblank : ∀ c ∈ closer, Text.isBlank c = false := by simp [closer, Text.isBlank]
  have hline : ∀ l, closer <:+: furtherLine width l ↔ closer <:+: l := by
    intro l
    have hspaces : ∀ c ∈ List.replicate width ' ' ++ [' '], c ∉ closer := by
      intro c hc
      rw [Text.eq_space_of_mem hc]
      decide
    have hfront : furtherLine width l = List.replicate width ' ' ++ [' '] ++ Text.trim l := by
      simp [furtherLine]
    rw [hfront, infix_append_left_iff hne hspaces, Text.infix_trim_iff hne hblank]
  obtain ⟨first, rest, hcontent⟩ := Text.exists_hasLines content
  have hbefore := infix_lines_iff hne hfeed first rest
  have hafter := infix_lines_iff hne hfeed (Text.trimEnd first) (rest.map (furtherLine width))
  rw [← hcontent.eq_flatMap] at hbefore
  rw [← (hasLines_spread hcontent width).eq_flatMap] at hafter
  rw [hafter, hbefore, Text.infix_trimEnd_iff hne hblank]
  simp [hline]

/-- The first character stays unless it is white space. -/
theorem head?_spread {c : Char} (hc : Text.isBlank c = false) (width : Nat)
    (content : List Char) : (spread width content).head? = some c ↔ content.head? = some c := by
  have hfeed : c ≠ '\n' := by
    rintro rfl
    cases hc
  have hlines : ∀ (l : List Char) (ls : List (List Char)),
      (l ++ ls.flatMap fun m => '\n' :: m).head? = some c ↔ l.head? = some c := by
    intro l ls
    cases l with
    | cons d l => rfl
    | nil =>
      cases ls with
      | nil => rfl
      | cons m ls => simp [hfeed.symm]
  obtain ⟨first, rest, hcontent⟩ := Text.exists_hasLines content
  rw [(hasLines_spread hcontent width).eq_flatMap, hlines, Text.head?_trimEnd hc,
    ← hlines first rest, ← hcontent.eq_flatMap]

/-- Indenting a comment with a closer puts spaces in front of it and inside. -/
theorem nestedText_delimited {opening : String} (hopening : opening ∈ ["/*", "/**"])
    (content : String) (width levels : Nat) :
    (Fragment.ofText (delimited opening content "*/")).nestedText width levels =
      List.replicate (width * levels) ' ' ++
        (opening.toList ++ (spread (width * levels) content.toList ++ closer)) := by
  have hplain : ∀ o ∈ ["/*", "/**"], o.toList ≠ [] ∧ '\n' ∉ o.toList := by decide
  obtain ⟨hne, hfeed⟩ := hplain opening hopening
  rw [Fragment.nestedText_ofText, Text.indent_iterate, indent_delimited hne hfeed (by decide)]
  simp only [List.append_assoc]
  rfl

/-- Indenting a comment up to the end of the line puts spaces in front of it,
    and inside only behind a line feed. -/
theorem nestedText_lineComment (t : List Char) (width levels : Nat) :
    ∃ u, (Fragment.ofText ("//" ++ String.ofList t)).nestedText width levels =
        List.replicate (width * levels) ' ' ++ '/' :: '/' :: u ∧
      ((∀ c ∈ u, isLineEnd c = false) ↔ ∀ c ∈ t, isLineEnd c = false) := by
  have htext : ("//" ++ String.ofList t).toList = '/' :: '/' :: t := by
    rw [String.toList_append, String.toList_ofList (l := t)]
    rfl
  rw [Fragment.nestedText_ofText, Text.indent_iterate, htext]
  by_cases hfeed : '\n' ∈ t
  · -- Neither text is free of line ends then.
    obtain ⟨l, rest, rfl, hl⟩ := List.eq_append_cons_of_mem hfeed
    have hsplit :=
      Text.indent_append_cons (l := '/' :: '/' :: l) (by simp [hl]) (width * levels) rest
    refine ⟨l ++ '\n' :: Text.indent (width * levels) rest, ?_, ?_⟩
    · rw [Text.indentLine_of_ne_nil (List.cons_ne_nil _ _), List.append_assoc] at hsplit
      exact hsplit
    · have hnot : ∀ r, ¬∀ c ∈ l ++ '\n' :: r, isLineEnd c = false := fun r h =>
        absurd (h '\n' (List.mem_append_right l List.mem_cons_self)) (by decide)
      exact iff_of_false (hnot _) (hnot _)
  · refine ⟨t, ?_, Iff.rfl⟩
    rw [Text.indent_of_not_mem (by simp [hfeed]), Text.indentLine_of_ne_nil (List.cons_ne_nil _ _)]

end Template

namespace Printer

variable {A : Alphabet}

/-- At any depth a comment is a single comment exactly if its content can
    stand in it. -/
theorem isOneComment_nestedText_iff (kind : CommentKind) (a : Attributes) (width levels : Nat) :
    IsOneComment A ((Template.comment kind a).nestedText width levels) ↔
      kind.Encloses (Template.textAt a Key.content).toList := by
  have hspaces : ∀ c ∈ List.replicate (width * levels) ' ', isSpace c = true := by
    intro c hc
    rw [(List.mem_replicate.1 hc).2]
    decide
  cases kind with
  | line =>
    obtain ⟨u, htext, hends⟩ := Template.nestedText_lineComment
      (Text.trimEnd (Template.textAt a Key.content).toList) width levels
    show IsOneComment A (Fragment.nestedText width levels _) ↔ _
    rw [Template.comment, htext, isOneComment_append_iff hspaces rfl, accepts_slashes_iff, hends]
    exact and_iff_right rfl
  | block =>
    show IsOneComment A (Fragment.nestedText width levels _) ↔ _
    rw [Template.comment, Template.nestedText_delimited (by decide),
      isOneComment_append_iff hspaces rfl]
    refine (and_iff_right rfl).trans (accepts_closed_iff.trans (not_congr ?_))
    exact Template.closer_infix_spread_iff (width * levels) _
  | javadoc =>
    show IsOneComment A (Fragment.nestedText width levels _) ↔ _
    rw [Template.comment, Template.nestedText_delimited (by decide),
      isOneComment_append_iff hspaces rfl]
    set content := (Template.textAt a Key.content).toList with hcontent
    -- The last asterisk of the opening counts as one in front of the content.
    have hstar : closer <:+: '*' :: Template.spread (width * levels) content ↔
        content.head? = some '/' ∨ closer <:+: content := by
      rw [List.infix_cons_iff, Template.closer_infix_spread_iff,
        ← Template.head?_spread (by decide) (width * levels), closer, List.cons_prefix_cons,
        List.singleton_prefix_iff_head?_eq_some]
      simp
    have hclosed : accepts (run A .start ('/' :: '*' ::
        ('*' :: Template.spread (width * levels) content ++ closer))) = true ↔
        ¬closer <:+: '*' :: Template.spread (width * levels) content := accepts_closed_iff
    rw [hstar, not_or, and_comm] at hclosed
    exact (and_iff_right rfl).trans hclosed

end Printer

/-! ## Section 6: Comments as they are written -/

/-- A text is written as it is, up to the line ends: it ends with a line, and
    it has neither marks nor carriage returns at the ends of its lines. -/
structure Text.IsWritable (cs : List Char) : Prop where
  feeds : PlainFeeds cs
  last : cs.getLast? ≠ some '\n'
  unmarked : lineMark ∉ cs

namespace Template

theorem not_mem_spread {c : Char} {content : List Char} (hspace : c ≠ ' ') (hfeed : c ≠ '\n')
    (h : c ∉ content) (width : Nat) : c ∉ spread width content := by
  obtain ⟨first, rest, hcontent⟩ := Text.exists_hasLines content
  rw [hcontent.eq_flatMap, List.mem_append, not_or] at h
  rw [spread_eq hcontent]
  intro hmem
  rcases List.mem_append.1 hmem with hmem | hmem
  · exact Text.not_mem_trimEnd h.1 hmem
  · obtain ⟨l, hl, hmem⟩ := List.mem_flatMap.1 hmem
    have hline : c ∉ l := fun hc =>
      h.2 (List.mem_flatMap.2 ⟨l, hl, List.mem_cons_of_mem _ hc⟩)
    simp [furtherLine, hspace, hfeed, Text.not_mem_trim hline] at hmem

/-- No line of a comment that another one follows ends with a carriage
    return. -/
theorem plainFeeds_lines {l : List Char} {ls : List (List Char)} (width : Nat) (hl : '\n' ∉ l)
    (hlast : l.getLast? ≠ some '\r') (hls : ∀ m ∈ ls, '\n' ∉ m) :
    Text.PlainFeeds (l ++ ls.flatMap fun m => '\n' :: furtherLine width m) := by
  induction ls generalizing l with
  | nil =>
    rw [List.flatMap_nil, List.append_nil]
    exact Text.plainFeeds_of_not_mem hl
  | cons m ls ih =>
    have hnext := newline_not_mem_furtherLine (hls m List.mem_cons_self) width
    have hends : (furtherLine width m).getLast? ≠ some '\r' := by
      intro h
      cases htrim : Text.trim m with
      | nil => simp [furtherLine, htrim] at h
      | cons c cs =>
        have hright : (Text.trim m).getLast? = some '\r' := by
          simpa [furtherLine, htrim, List.getLast?_cons_cons] using h
        exact absurd (Text.getLast?_trimEnd hright) (by decide)
    have hrest := ih hnext hends fun k hk => hls k (List.mem_cons_of_mem m hk)
    rw [List.flatMap_cons]
    refine List.IsChain.append (Text.plainFeeds_of_not_mem hl) (hrest.cons fun _ _ _ => ?_) ?_
    · decide
    · intro c hc _ _ _ hreturn
      exact hlast (hreturn ▸ hc)

theorem plainFeeds_delimited {opening : String} (hopening : opening ∈ ["/*", "/**"])
    (content : String) : Text.PlainFeeds (delimited opening content "*/").toList := by
  have hplain : ∀ o ∈ ["/*", "/**"], '\n' ∉ o.toList ∧ o.toList.getLast? = some '*' := by decide
  obtain ⟨hfeed, hstar⟩ := hplain opening hopening
  rw [toList_delimited]
  obtain ⟨first, rest, hcontent⟩ := Text.exists_hasLines content.toList
  have hfirst : '\n' ∉ opening.toList ++ Text.trimEnd first := by
    simp [hfeed, Text.not_mem_trimEnd hcontent.first]
  have hlast : (opening.toList ++ Text.trimEnd first).getLast? ≠ some '\r' := by
    intro h
    rw [List.getLast?_append] at h
    cases htrim : (Text.trimEnd first).getLast? with
    | none =>
      rw [htrim, hstar] at h
      exact absurd h (by decide)
    | some c =>
      rw [htrim] at h
      obtain rfl : c = '\r' := Option.some.inj h
      exact absurd (Text.getLast?_trimEnd htrim) (by decide)
  have hlines := plainFeeds_lines 0 hfirst hlast hcontent.further
  rw [spread_eq hcontent, ← List.append_assoc]
  exact hlines.append (Text.plainFeeds_of_not_mem (by decide)) (by decide)

theorem isWritable_delimited {opening : String} (hopening : opening ∈ ["/*", "/**"])
    {content : String} (hmark : lineMark ∉ content.toList) :
    Text.IsWritable (delimited opening content "*/").toList := by
  have hplain : ∀ o ∈ ["/*", "/**"], lineMark ∉ o.toList ++ "*/".toList := by decide
  have hunmarked : lineMark ∉ spread 0 content.toList :=
    not_mem_spread (by decide) (by decide) hmark 0
  refine ⟨plainFeeds_delimited hopening content, ?_, ?_⟩
  · have hlast : "*/".toList.getLast? = some '/' := by decide
    rw [toList_delimited, List.getLast?_append, hlast]
    exact fun h => absurd (Option.some.inj h) (by decide)
  · have hends := hplain opening hopening
    rw [List.mem_append, not_or] at hends
    simp only [toList_delimited, List.mem_append, hends, hunmarked, or_self, not_false_eq_true]

theorem isWritable_lineComment {t : List Char} (hends : ∀ c ∈ t, isLineEnd c = false)
    (hmark : lineMark ∉ t) : Text.IsWritable ('/' :: '/' :: t) := by
  have hfeed : '\n' ∉ '/' :: '/' :: t := by
    intro hmem
    have ht : '\n' ∈ t := by simpa using hmem
    exact absurd (hends '\n' ht) (by decide)
  refine ⟨Text.plainFeeds_of_not_mem hfeed, fun h => hfeed (List.mem_of_getLast? h), ?_⟩
  rw [List.mem_cons, List.mem_cons, not_or, not_or]
  exact ⟨by decide, by decide, hmark⟩

/-- A comment is one text, written as it is if its content can stand in it. -/
theorem exists_text_comment {kind : CommentKind} {a : Attributes}
    (hencloses : kind.Encloses (textAt a Key.content).toList)
    (hmark : lineMark ∉ (textAt a Key.content).toList) :
    ∃ s, comment kind a = .ofText s ∧ Text.IsWritable s.toList := by
  cases kind with
  | line =>
    have htext : ("//" ++ String.ofList (Text.trimEnd (textAt a Key.content).toList)).toList =
        '/' :: '/' :: Text.trimEnd (textAt a Key.content).toList := by
      rw [String.toList_append, String.toList_ofList (l := Text.trimEnd _)]
      rfl
    refine ⟨_, rfl, ?_⟩
    rw [htext]
    exact isWritable_lineComment hencloses (Text.not_mem_trimEnd hmark)
  | block => exact ⟨_, rfl, isWritable_delimited (by decide) hmark⟩
  | javadoc => exact ⟨_, rfl, isWritable_delimited (by decide) hmark⟩

end Template

namespace Printer

variable {A : Alphabet} {layout : Layout} {n : Cursor}

/-- A comment has no children. -/
theorem fragment_comment {kind : CommentKind} (built : n.tree.Built)
    (hkind : n.kind = .comment kind) :
    fragment n = .ok (Template.comment kind n.attributes) := by
  have hchildren : n.children = [] := by
    by_contra hne
    obtain ⟨c, hc⟩ := List.exists_mem_of_ne_nil _ hne
    have haccepts := (Cursor.sound_toDocument built.linked).accepted c.toDocument (by
      rw [Cursor.children_toDocument]
      exact List.mem_map_of_mem hc)
    rw [Cursor.kind_toDocument, Cursor.kind_toDocument, hkind, Kind.accepts] at haccepts
    exact Bool.noConfusion ((Bool.and_eq_true_iff.1 haccepts).2.symm.trans rfl)
  rw [fragment_of_leaf hchildren, hkind]
  rfl

/-- Comment text never becomes code, if it can stand in the comment.

    A comment node always has a source text.  At any depth, with levels of any
    width, this is lexed as a single comment exactly if the content can stand
    in a comment of that kind: without a line end up to its last character
    that is not white space in a line comment, without a closer in the others,
    and in a Javadoc comment without a slash at its beginning too, which would
    close it with the asterisk in front.  A comment that is printed on its own,
    with levels of a width there is room for, is then nothing but this comment
    and the end of its line.

    As everywhere here, lexing begins with a text in which Unicode escapes are
    translated already, so none is left in the content. -/
theorem comment_is_one_comment_iff {kind : CommentKind} (built : n.tree.Built)
    (hkind : n.kind = .comment kind) (A : Alphabet) :
    let content := (Template.textAt n.attributes Key.content).toList
    ∃ f, fragment n = .ok f ∧
      (∀ width levels, IsOneComment A (f.nestedText width levels) ↔ kind.Encloses content) ∧
      (kind.Encloses content → lineMark ∉ content → ∀ layout : Layout,
        layout.indentWidth ≤ maxBytes → layout.lineTerminator.toList ∈ lineEnds →
          ∃ out w, print layout n = .ok out ∧ out.toList = w ++ layout.lineTerminator.toList ∧
            IsOneComment A w ∧ tokens A out.toList = some []) := by
  intro content
  have hfragment := fragment_comment built hkind
  refine ⟨_, hfragment, isOneComment_nestedText_iff kind n.attributes, ?_⟩
  intro hencloses hmark layout hwidth hending
  obtain ⟨s, hcomment, hwritable⟩ := Template.exists_text_comment hencloses hmark
  have hclosed : ∀ ending ∈ lineEnds, lineMark ∉ ending := by decide
  have hwritten := Fragment.write_ofText (hclosed _ hending) hwritable.feeds hwritable.last
  rw [Layout.breakAll_of_unmarked hwritable.unmarked] at hwritten
  have hone : IsOneComment A s.toList := by
    have h := (isOneComment_nestedText_iff (A := A) kind n.attributes 0 0).2 hencloses
    rwa [hcomment, Fragment.nestedText_ofText, Function.iterate_zero_apply] at h
  have hlines := isOneComment_withLineEnds hone hending
  refine ⟨(Fragment.ofText s).write layout, _, ?_, hwritten, hlines, ?_⟩
  · rw [print_eq_write hwidth, hfragment, hcomment]
    rfl
  · rw [hwritten]
    exact tokens_of_isOneComment_lineEnd hlines hending

end Printer

/-! ## Section 7: Comments that end too early -/

/-- A compilation unit with four comments.  The content of the first holds a
    line feed, that of the second closers; that of the third begins with a
    slash. -/
def Builder.brokenComments : Builder :=
  let content (s : String) : Attributes := Attributes.empty.insert Key.content (.text s)
  let line := new.add 0 (.comment .line) (content "a\nint x;")
  let block := line.add 0 (.comment .block) (content "*/ int y; /*")
  (block.add 0 (.comment .javadoc) (content "/ int z;")).add 0 (.comment .javadoc)
    (content "\n * b\n   c")

/-- The tree of `Builder.brokenComments`. -/
def Tree.brokenComments : Tree :=
  ⟨Builder.brokenComments.arena, Builder.brokenComments.ordered, by decide⟩

theorem Tree.built_brokenComments : brokenComments.Built := by
  have hreach : Builder.brokenComments.Reachable := by
    iterate 4 refine Builder.Reachable.add ?_ (by decide) _ _
    exact .start _ _
  exact ⟨Builder.brokenComments, hreach, Builder.finish_eq_ok_iff.2 ⟨by decide, rfl⟩⟩

/-- A node of `Tree.brokenComments`. -/
def Cursor.brokenComments (i : Fin 5) : Cursor :=
  ⟨Tree.brokenComments, i, Nat.lt_of_lt_of_eq i.isLt rfl⟩

namespace Printer

/-- The last of the comments is a single one. -/
theorem comment_is_one_comment_iff_lastComment :
    Tree.brokenComments.Built ∧ (Cursor.brokenComments 4).kind = .comment .javadoc ∧
      print {} (.brokenComments 4) = .ok "/**\n * b\n c*/\n" ∧
      ∃ f, fragment (.brokenComments 4) = .ok f ∧
        IsOneComment .ascii (f.nestedText 2 3) ∧
        tokens .ascii "/**\n * b\n c*/\n".toList = some [] := by
  have hkind : (Cursor.brokenComments 4).kind = .comment .javadoc := by decide
  have hprint : print {} (.brokenComments 4) = .ok "/**\n * b\n c*/\n" := by
    rw [print_eq_write (by decide), fragment_comment Tree.built_brokenComments hkind]
    rfl
  have hencloses : CommentKind.javadoc.Encloses
      (Template.textAt (Cursor.brokenComments 4).attributes Key.content).toList := by
    refine ⟨?_, ?_⟩ <;> decide
  obtain ⟨f, hf, hone, hwritten⟩ :=
    comment_is_one_comment_iff Tree.built_brokenComments hkind .ascii
  obtain ⟨out, w, hout, -, -, htokens⟩ := hwritten hencloses (by decide) {} (by decide) (by decide)
  obtain rfl := Except.ok.inj (hprint.symm.trans hout)
  exact ⟨Tree.built_brokenComments, hkind, hprint, f, hf, (hone 2 3).2 hencloses, htokens⟩

/-- A comment is no single comment where its content has its way out, and what
    stands behind a line feed is code. -/
theorem comment_becomes_code :
    Tree.brokenComments.Built ∧
      (∀ i ∈ [(1 : Fin 5), 2, 3], ∃ kind, (Cursor.brokenComments i).kind = .comment kind ∧
        ∃ f, fragment (.brokenComments i) = .ok f ∧
          ¬IsOneComment .ascii (f.nestedText 2 0)) ∧
      print {} (.brokenComments 1) = .ok "//a\nint x;\n" ∧
      tokens .ascii "//a\nint x;\n".toList = some (["int", "x", ";"].map String.toList) := by
  have hkinds : ∀ i ∈ [(1 : Fin 5), 2, 3], ∃ kind, (Cursor.brokenComments i).kind = .comment kind ∧
      ¬kind.Encloses (Template.textAt (Cursor.brokenComments i).attributes Key.content).toList := by
    intro i hi
    have hcases : i = 1 ∨ i = 2 ∨ i = 3 := by simpa using hi
    rcases hcases with rfl | rfl | rfl
    · exact ⟨.line, by decide, fun h => absurd (h '\n' (by decide)) (by decide)⟩
    · have hcloser : closer <:+: "*/ int y; /*".toList := by decide
      exact ⟨.block, by decide, fun h => h hcloser⟩
    · exact ⟨.javadoc, by decide, fun h => absurd h.2 (by decide)⟩
  refine ⟨Tree.built_brokenComments, ?_, ?_, ?_⟩
  · intro i hi
    obtain ⟨kind, hkind, hbroken⟩ := hkinds i hi
    have hfragment := fragment_comment Tree.built_brokenComments hkind
    refine ⟨kind, hkind, _, hfragment, ?_⟩
    rw [isOneComment_nestedText_iff]
    exact hbroken
  · have hkind : (Cursor.brokenComments 1).kind = .comment .line := by decide
    rw [print_eq_write (by decide), fragment_comment Tree.built_brokenComments hkind]
    rfl
  · have hcomment : tokens .ascii "//a\nint x;\n".toList = tokens .ascii "\nint x;\n".toList :=
      tokens_comment_append (w := "//a".toList) rfl rfl fun c hc => by cases hc; rfl
    have hint : tokens .ascii "\nint x;\n".toList =
        (tokens .ascii " x;\n".toList).map ("int".toList :: ·) :=
      (tokens_space rfl _).trans (tokens_append (w := "int".toList) rfl
        (fun c hc => by cases hc; rfl) (fun c hc => by cases hc; rfl) rfl)
    have hx : tokens .ascii " x;\n".toList = (tokens .ascii ";\n".toList).map ("x".toList :: ·) :=
      (tokens_space rfl _).trans (tokens_append (w := "x".toList) rfl
        (fun c hc => by cases hc; rfl) (fun c hc => by cases hc; rfl) rfl)
    have hend : tokens .ascii ";\n".toList = (tokens .ascii "\n".toList).map (";".toList :: ·) :=
      tokens_append (w := ";".toList) rfl (fun c hc => by cases hc; rfl)
        (fun c hc => by cases hc; rfl) rfl
    have hfeed : tokens .ascii "\n".toList = some [] := (tokens_space rfl _).trans tokens_nil
    rw [hcomment, hint, hx, hend, hfeed]
    rfl

end Printer

end JavaTree
