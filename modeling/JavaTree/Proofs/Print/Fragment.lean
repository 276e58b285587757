import JavaTree.Print

/-! # Fragments of laid-out text

    A fragment is text in lines, where each line knows at which level it
    stands and not how wide a level is.  Widths and line ends are chosen only
    when the finished fragment is written (`Fragment.write`).

    The first line of a fragment continues the line it is put on, so it has
    no level of its own.  A character `lineMark` inside a line stands for a
    line break whose next line always starts at the left margin.

    Fragments with `++` and the empty fragment are a monoid, so that texts
    which are put together in different groupings are the same, and
    `ofText` takes texts to it (`ofText_append`).  A body that is nested below
    a fragment stays below whatever the fragment is appended to
    (`append_nest`), and is never mistaken for text that goes on on the
    fragment's last line (`append_ne_lower`).  Line breaks aside, the
    characters of a fragment are those of its parts (`chars_append`,
    `chars_nest`). -/

namespace JavaTree

/-! ## Section 1: Lines and fragments -/

/-- A line of text and the level at which it stands. -/
structure Line where
  /-- How many levels the line is moved to the right. -/
  level : Nat
  /-- The text, without indentation. -/
  text : String
  deriving DecidableEq, Repr

/-- Move a line one level to the right.  Empty lines stay as they are. -/
def Line.deeper (l : Line) : Line :=
  if l.text = "" then l else { l with level := l.level + 1 }

/-- Drop one carriage return at the end of a line. -/
def Line.dropReturn (l : Line) : Line :=
  { l with text := String.ofList (Text.dropReturn l.text.toList) }

/-- A line as it is written: indentation, text, line end. -/
def Layout.writeLine (layout : Layout) (l : Line) : String :=
  String.ofList (List.replicate (layout.indentWidth * l.level) ' ') ++ l.text
    ++ layout.lineTerminator

/-- A piece of laid-out text. -/
structure Fragment where
  /-- The first line. -/
  head : String
  /-- The lines below it. -/
  tail : List Line
  deriving DecidableEq, Repr

namespace Fragment

/-- All lines. -/
def lines (f : Fragment) : List Line := ⟨0, f.head⟩ :: f.tail

/-- The fragment without text. -/
def empty : Fragment := ⟨"", []⟩

instance : Inhabited Fragment := ⟨empty⟩

/-- Whether the fragment is without text and without a line break. -/
def isEmpty (f : Fragment) : Bool := f.head = "" && f.tail.isEmpty

/-- A text as a fragment; each of its line breaks starts a line. -/
def ofText (s : String) : Fragment :=
  match Text.pieces '\n' s.toList with
  | [] => empty
  | p :: ps => ⟨String.ofList p, ps.map fun p => ⟨0, String.ofList p⟩⟩

instance : Coe String Fragment := ⟨ofText⟩

/-! ## Section 2: Putting fragments together -/

/-- Continue the last of some lines with a fragment. -/
def continueWith (f : Fragment) : List Line → List Line
  | [] => f.lines
  | [l] => { l with text := l.text ++ f.head } :: f.tail
  | l :: rest => l :: continueWith f rest

/-- Put one fragment directly behind another. -/
def append (f g : Fragment) : Fragment :=
  if f.tail.isEmpty then ⟨f.head ++ g.head, g.tail⟩ else ⟨f.head, continueWith g f.tail⟩

instance : Append Fragment := ⟨append⟩

/-- Put a fragment below another, one level to the right. -/
def nest (f body : Fragment) : Fragment := ⟨f.head, f.tail ++ body.lines.map Line.deeper⟩

/-- Put fragments behind each other with a separator between them. -/
def join (sep : String) : List Fragment → Fragment
  | [] => empty
  | [f] => f
  | f :: rest => f ++ (ofText sep ++ join sep rest)

/-- Put fragments behind each other, each followed by an ending. -/
def joinEnding (ending : String) : List Fragment → Fragment
  | [] => empty
  | f :: rest => f ++ (ofText ending ++ joinEnding ending rest)

/-- The first character, if the fragment starts with one. -/
def firstChar? (f : Fragment) : Option Char := f.head.toList.head?

/-- Drop the semicolons at the end of the last of some lines. -/
def withoutSemicolons : List Line → List Line
  | [] => []
  | [l] => [{ l with text := Text.dropSemicolons l.text }]
  | l :: rest => l :: withoutSemicolons rest

/-- Drop the semicolons at the end of the fragment. -/
def trimSemicolons (f : Fragment) : Fragment :=
  if f.tail.isEmpty then ⟨Text.dropSemicolons f.head, []⟩ else ⟨f.head, withoutSemicolons f.tail⟩

/-! ## Section 3: Writing -/

/-- The lines to be written.  A line that another one follows loses a
    carriage return at its end, and an empty last line is no line, unless it
    is the only one. -/
def written : List Line → List Line
  | [] => []
  | [l] => [l]
  | [l, last] => if last.text = "" then [l.dropReturn] else [l.dropReturn, last]
  | l :: rest => l.dropReturn :: written rest

/-- The text of the fragment under a layout: every line is indented by its
    level and ended, and then every mark becomes a line end. -/
def write (layout : Layout) (f : Fragment) : String :=
  layout.breakMarks (String.join ((written f.lines).map layout.writeLine))

/-! ## Section 4: Fragments behind each other -/

theorem append_eq (f g : Fragment) : f ++ g = f.append g := rfl

/-- Behind a single line the next fragment goes on on that line. -/
theorem append_of_tail_nil {f : Fragment} (h : f.tail = []) (g : Fragment) :
    f ++ g = ⟨f.head ++ g.head, g.tail⟩ := by
  rw [append_eq, append, h]
  rfl

/-- Behind several lines it goes on on the last one. -/
theorem append_of_tail_ne_nil {f : Fragment} (h : f.tail ≠ []) (g : Fragment) :
    f ++ g = ⟨f.head, continueWith g f.tail⟩ := by
  rw [append_eq, append, if_neg (by simpa using h)]

/-- The lines of a text are its pieces between line breaks. -/
theorem lines_ofText (s : String) :
    (ofText s).lines = (Text.pieces '\n' s.toList).map fun p => ⟨0, String.ofList p⟩ := by
  unfold ofText
  split
  · rename_i hnil
    exact absurd hnil (Text.pieces_ne_nil '\n' s.toList)
  · rename_i p ps hpieces
    rw [hpieces]
    rfl

/-- A text without line breaks is a single line. -/
theorem ofText_of_not_mem {s : String} (h : '\n' ∉ s.toList) : ofText s = ⟨s, []⟩ := by
  rw [ofText, Text.pieces_of_not_mem h]
  simp

theorem continueWith_ne_nil (f : Fragment) {ls : List Line} (h : ls ≠ []) :
    continueWith f ls ≠ [] := by
  cases ls with
  | nil => exact absurd rfl h
  | cons l ls => cases ls <;> simp [continueWith]

@[simp] theorem continueWith_cons_cons (f : Fragment) (l m : Line) (ls : List Line) :
    continueWith f (l :: m :: ls) = l :: continueWith f (m :: ls) := rfl

@[simp] theorem empty_append (f : Fragment) : empty ++ f = f := by
  rw [append_of_tail_nil rfl]
  simp [empty]

@[simp] theorem append_empty (f : Fragment) : f ++ empty = f := by
  by_cases h : f.tail = []
  · obtain ⟨head, tail⟩ := f
    obtain rfl : tail = [] := h
    rw [append_of_tail_nil rfl]
    simp [empty]
  · have hlines : ∀ ls : List Line, ls ≠ [] → continueWith empty ls = ls := by
      intro ls hls
      induction ls with
      | nil => exact absurd rfl hls
      | cons l ls ih =>
        cases ls with
        | nil => simp [continueWith, empty]
        | cons m ls => rw [continueWith_cons_cons, ih (by simp)]
    rw [append_of_tail_ne_nil h, hlines f.tail h]

/-- Without a separator fragments are just put behind each other. -/
theorem join_empty_cons (f : Fragment) (fs : List Fragment) :
    join "" (f :: fs) = f ++ join "" fs := by
  cases fs with
  | nil => exact (append_empty f).symm
  | cons g fs => exact congrArg (f ++ ·) (empty_append _)

theorem continueWith_continueWith (f g : Fragment) {ls : List Line} (h : ls ≠ []) :
    continueWith g (continueWith f ls) = continueWith (f ++ g) ls := by
  induction ls with
  | nil => exact absurd rfl h
  | cons l ls ih =>
    cases ls with
    | nil =>
      -- The last line is where the first fragment, and maybe the second, goes on.
      by_cases hf : f.tail = []
      · rw [append_of_tail_nil hf]
        simp [continueWith, hf, String.append_assoc]
      · obtain ⟨m, ms, hm⟩ := List.exists_cons_of_ne_nil hf
        rw [append_of_tail_ne_nil hf, hm]
        simp [continueWith, hm]
    | cons m ls =>
      have hne : continueWith f (m :: ls) ≠ [] := continueWith_ne_nil f (by simp)
      obtain ⟨k, ks, hk⟩ := List.exists_cons_of_ne_nil hne
      have hrest := ih (by simp)
      rw [hk] at hrest
      rw [continueWith_cons_cons, continueWith_cons_cons, hk, continueWith_cons_cons, hrest]

theorem append_assoc (f g k : Fragment) : f ++ g ++ k = f ++ (g ++ k) := by
  by_cases hf : f.tail = []
  · by_cases hg : g.tail = []
    · simp only [append_of_tail_nil, hf, hg, String.append_assoc]
    · rw [append_of_tail_nil hf, append_of_tail_nil hf, append_of_tail_ne_nil hg,
        append_of_tail_ne_nil (by exact hg)]
  · have hne : (f ++ g).tail ≠ [] := by
      rw [append_of_tail_ne_nil hf]
      exact continueWith_ne_nil g hf
    rw [append_of_tail_ne_nil hne, append_of_tail_ne_nil hf, append_of_tail_ne_nil hf]
    dsimp only
    rw [continueWith_continueWith g k hf]

/-- A text is read character by character. -/
theorem ofText_cons (c : Char) (cs : List Char) :
    ofText (String.ofList (c :: cs)) = ofText (String.ofList [c]) ++ ofText (String.ofList cs) := by
  simp only [ofText, String.toList_ofList, Text.pieces]
  cases hp : Text.pieces '\n' cs with
  | nil => exact absurd hp (Text.pieces_ne_nil '\n' cs)
  | cons p ps =>
    by_cases hc : c = '\n'
    · simp only [if_pos hc]
      rw [append_of_tail_ne_nil (by simp)]
      simp [continueWith]
    · simp only [if_neg hc]
      rw [append_of_tail_nil rfl, ← String.ofList_append]
      rfl

/-- The fragment of two texts behind each other. -/
theorem ofText_append (s t : String) : ofText (s ++ t) = ofText s ++ ofText t := by
  have hlists : ∀ cs ds : List Char, ofText (String.ofList (cs ++ ds)) =
      ofText (String.ofList cs) ++ ofText (String.ofList ds) := by
    intro cs ds
    induction cs with
    | nil => exact (empty_append _).symm
    | cons c cs ih => rw [List.cons_append, ofText_cons, ih, ofText_cons c cs, append_assoc]
  have hst := hlists s.toList t.toList
  rwa [String.ofList_append, String.ofList_toList, String.ofList_toList] at hst

theorem continueWith_append (f : Fragment) (ls : List Line) {ms : List Line} (h : ms ≠ []) :
    continueWith f (ls ++ ms) = ls ++ continueWith f ms := by
  induction ls with
  | nil => rfl
  | cons l ls ih =>
    obtain ⟨m, ms', hm⟩ := List.exists_cons_of_ne_nil (l := ls ++ ms) (by simp [h])
    rw [List.cons_append, hm, continueWith_cons_cons, ← hm, ih]
    rfl

/-- A body below a fragment is below the last part of it. -/
theorem append_nest (f g body : Fragment) : (f ++ g).nest body = f ++ g.nest body := by
  by_cases hf : f.tail = []
  · rw [append_of_tail_nil hf, append_of_tail_nil hf]
    rfl
  · have hlines : ∀ ls : List Line, ls ≠ [] →
        continueWith g ls ++ body.lines.map Line.deeper = continueWith (g.nest body) ls := by
      intro ls hls
      induction ls with
      | nil => exact absurd rfl hls
      | cons l ls ih =>
        cases ls with
        | nil => rfl
        | cons m ls =>
          rw [continueWith_cons_cons, continueWith_cons_cons, ← ih (by simp)]
          rfl
    rw [append_of_tail_ne_nil hf, append_of_tail_ne_nil hf, nest, hlines f.tail hf]

theorem length_continueWith (f : Fragment) {ls : List Line} (h : ls ≠ []) :
    (continueWith f ls).length = ls.length + f.tail.length := by
  induction ls with
  | nil => exact absurd rfl h
  | cons l ls ih =>
    cases ls with
    | nil => simp [continueWith, Nat.add_comm]
    | cons m ls =>
      rw [continueWith_cons_cons, List.length_cons, ih (by simp)]
      simp only [List.length_cons]
      omega

@[simp] theorem length_tail_append (f g : Fragment) :
    (f ++ g).tail.length = f.tail.length + g.tail.length := by
  by_cases hf : f.tail = []
  · simp [append_of_tail_nil hf, hf]
  · rw [append_of_tail_ne_nil hf, length_continueWith g hf]

@[simp] theorem length_tail_nest (f body : Fragment) :
    (f.nest body).tail.length = f.tail.length + body.tail.length + 1 := by
  simp [nest, lines]
  omega

/-- A fragment that goes on on its last line is not one with lines below it. -/
theorem append_ne_lower {f g : Fragment} (hg : g.head ≠ "") (ms : List Line) :
    f ++ g ≠ ⟨f.head, f.tail ++ ms⟩ := by
  have hgrows : ∀ s : String, s ++ g.head ≠ s := by
    intro s hs
    have hchars := congrArg String.toList hs
    rw [String.toList_append] at hchars
    exact hg (String.toList_inj.1 (List.append_right_eq_self.1 hchars))
  have hlines : ∀ ls : List Line, ls ≠ [] → continueWith g ls ≠ ls ++ ms := by
    intro ls hls heq
    induction ls with
    | nil => exact hls rfl
    | cons l ls ih =>
      cases ls with
      | nil => exact hgrows l.text (congrArg Line.text (List.cons.inj heq).1)
      | cons m ls => exact ih (by simp) (List.cons.inj heq).2
  intro heq
  by_cases hf : f.tail = []
  · rw [append_of_tail_nil hf] at heq
    exact hgrows f.head (congrArg Fragment.head heq)
  · rw [append_of_tail_ne_nil hf] at heq
    exact hlines f.tail hf (congrArg Fragment.tail heq)

theorem written_ne_nil (l : Line) (ls : List Line) : written (l :: ls) ≠ [] := by
  match ls with
  | [] => exact List.cons_ne_nil _ _
  | [last] =>
    rw [written]
    split <;> exact List.cons_ne_nil _ _
  | m :: k :: ks => exact List.cons_ne_nil _ _

/-- Only the last line can be left out, and only if it is empty. -/
theorem written_append {last : Line} (hlast : last.text ≠ "") (ls : List Line) :
    written (ls ++ [last]) = ls.map Line.dropReturn ++ [last] := by
  induction ls with
  | nil => rfl
  | cons l ls ih =>
    cases ls with
    | nil => simp [written, hlast]
    | cons m ls =>
      have hstep : written (l :: m :: (ls ++ [last])) =
          l.dropReturn :: written (m :: (ls ++ [last])) := by
        cases ls <;> rfl
      exact hstep.trans (congrArg (l.dropReturn :: ·) ih)

end JavaTree.Fragment

namespace JavaTree

/-- Dropping characters that are not kept anyway changes nothing. -/
theorem Text.filter_dropWhile {keep test : Char → Bool} (h : ∀ c, test c = true → keep c = false)
    (cs : List Char) : (cs.dropWhile test).filter keep = cs.filter keep := by
  induction cs with
  | nil => rfl
  | cons c cs ih =>
    cases hc : test c with
    | true => rw [List.dropWhile_cons_of_pos hc, ih, List.filter_cons_of_neg (by simp [h c hc])]
    | false => rw [List.dropWhile_cons_of_neg (by simp [hc])]

theorem Text.filter_dropWhile_end {keep test : Char → Bool}
    (h : ∀ c, test c = true → keep c = false) (cs : List Char) :
    (cs.reverse.dropWhile test).reverse.filter keep = cs.filter keep := by
  rw [List.filter_reverse, filter_dropWhile h, List.filter_reverse, List.reverse_reverse]

theorem Line.text_deeper (l : Line) : l.deeper.text = l.text := by
  unfold deeper
  split <;> rfl

/-- The characters of some lines, in order. -/
def Line.chars (ls : List Line) : List Char := ls.flatMap (·.text.toList)

theorem Line.chars_cons (l : Line) (ls : List Line) :
    chars (l :: ls) = l.text.toList ++ chars ls := rfl

theorem Line.chars_append (ls ms : List Line) : chars (ls ++ ms) = chars ls ++ chars ms :=
  List.flatMap_append

namespace Fragment

/-- The characters of a fragment, in order and without its line breaks. -/
def chars (f : Fragment) : List Char := Line.chars f.lines

theorem chars_eq (f : Fragment) : f.chars = f.head.toList ++ Line.chars f.tail := rfl

theorem chars_continueWith (f : Fragment) {ls : List Line} (h : ls ≠ []) :
    Line.chars (continueWith f ls) = Line.chars ls ++ f.chars := by
  induction ls with
  | nil => exact absurd rfl h
  | cons l ls ih =>
    cases ls with
    | nil => simp [continueWith, Line.chars, chars_eq]
    | cons m ls =>
      rw [continueWith_cons_cons, Line.chars_cons, ih (by simp), Line.chars_cons l,
        List.append_assoc]

theorem chars_append (f g : Fragment) : (f ++ g).chars = f.chars ++ g.chars := by
  by_cases hf : f.tail = []
  · rw [append_of_tail_nil hf, chars_eq f, hf]
    simp [chars_eq, Line.chars]
  · rw [append_of_tail_ne_nil hf, chars_eq, chars_continueWith g hf, chars_eq f,
      List.append_assoc]

theorem chars_nest (f body : Fragment) : (f.nest body).chars = f.chars ++ body.chars := by
  have hdeeper : Line.chars (body.lines.map Line.deeper) = body.chars := by
    rw [Line.chars, List.flatMap_map]
    simp only [Line.text_deeper]
    rfl
  rw [nest, chars_eq, Line.chars_append, hdeeper, chars_eq f, List.append_assoc]

theorem filter_dropSemicolons {keep : Char → Bool} (h : keep ';' = false) (s : String) :
    (Text.dropSemicolons s).toList.filter keep = s.toList.filter keep := by
  rw [Text.dropSemicolons, String.toList_ofList]
  apply Text.filter_dropWhile_end
  intro c hc
  rw [of_decide_eq_true hc]
  exact h

/-- Dropping semicolons keeps all other characters. -/
theorem filter_trimSemicolons {keep : Char → Bool} (h : keep ';' = false) (f : Fragment) :
    f.trimSemicolons.chars.filter keep = f.chars.filter keep := by
  have hlines : ∀ ls : List Line,
      (Line.chars (withoutSemicolons ls)).filter keep = (Line.chars ls).filter keep := by
    intro ls
    induction ls with
    | nil => rfl
    | cons l ls ih =>
      cases ls with
      | nil =>
        simp only [withoutSemicolons, Line.chars_cons, List.filter_append, filter_dropSemicolons h]
      | cons m ls =>
        rw [withoutSemicolons, Line.chars_cons, List.filter_append, ih, Line.chars_cons l,
          List.filter_append]
        simp
  unfold trimSemicolons
  split
  · rename_i htail
    rw [chars_eq, chars_eq, List.filter_append, List.filter_append, filter_dropSemicolons h,
      List.isEmpty_iff.1 htail]
  · rw [chars_eq, chars_eq, List.filter_append, List.filter_append, hlines]

end Fragment

end JavaTree
