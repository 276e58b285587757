import JavaTree.Proofs.Print.Fragment

/-! # Fragments with gaps

    A line break in a literal stands for itself in the source text, and no
    template looks at it.  To follow such breaks through the templates, this
    module has fragments with gaps in their lines (`GapFragment`).  Filled
    with a character they are fragments, and all that is done to fragments
    can be done before the gaps are filled: `fill_append`, `fill_nest` and so
    on.

    The characters that templates do look at (`Filler` names them) must not
    fill a gap. -/

namespace JavaTree

/-! ## Section 1: Texts with gaps -/

/-- A character that nothing in the layout of fragments depends on. -/
def Filler (c : Char) : Prop := c ∉ ['\n', '\r', ';', '+', '-']

instance (c : Char) : Decidable (Filler c) := inferInstanceAs (Decidable (c ∉ _))

theorem Filler.ne {c d : Char} (hc : Filler c) (hd : ¬Filler d) : c ≠ d := by
  rintro rfl
  exact hd hc

/-- A text with gaps in it. -/
abbrev GapText := List (Option Char)

namespace GapText

/-- A text without gaps. -/
def ofString (s : String) : GapText := s.toList.map some

/-- Fill all gaps with one character. -/
def fill (c : Char) (t : GapText) : String := String.ofList (t.map (·.getD c))

@[simp] theorem fill_append (c : Char) (s t : GapText) :
    fill c (s ++ t) = fill c s ++ fill c t := by
  rw [fill, List.map_append, String.ofList_append]
  rfl

@[simp] theorem fill_ofString (c : Char) (s : String) : fill c (ofString s) = s := by
  rw [fill, ofString, List.map_map]
  show String.ofList (s.toList.map id) = s
  rw [List.map_id, String.ofList_toList]

@[simp] theorem toList_fill (c : Char) (t : GapText) : (fill c t).toList = t.map (·.getD c) :=
  String.toList_ofList

theorem fill_eq_empty_iff {c : Char} {t : GapText} : fill c t = "" ↔ t = [] := by
  rw [← String.toList_inj, toList_fill]
  exact List.map_eq_nil_iff

/-- Drop the semicolons at the end of a text. -/
def dropSemicolons (t : GapText) : GapText := (t.reverse.dropWhile (· = some ';')).reverse

theorem fill_dropSemicolons {c : Char} (hc : Filler c) (t : GapText) :
    Text.dropSemicolons (fill c t) = fill c t.dropSemicolons := by
  have hne : c ≠ ';' := hc.ne (by decide)
  have hsemicolon : (fun o : Option Char => decide (o.getD c = ';')) =
      fun o => decide (o = some ';') := by
    funext o
    cases o with
    | none => simp [hne]
    | some d => simp
  rw [Text.dropSemicolons, toList_fill, ← List.map_reverse, List.dropWhile_map,
    ← List.map_reverse]
  show String.ofList (((t.reverse.dropWhile fun o => decide (o.getD c = ';')).reverse).map _) = _
  rw [hsemicolon]
  rfl

end GapText

/-! ## Section 2: Lines and fragments with gaps -/

/-- A line with gaps in its text. -/
structure GapLine where
  /-- How many levels the line is moved to the right. -/
  level : Nat
  /-- The text, without indentation. -/
  text : GapText

namespace GapLine

/-- Fill all gaps of the line. -/
def fill (c : Char) (l : GapLine) : Line := ⟨l.level, l.text.fill c⟩

/-- A line without gaps. -/
def ofLine (l : Line) : GapLine := ⟨l.level, .ofString l.text⟩

@[simp] theorem fill_ofLine (c : Char) (l : Line) : (ofLine l).fill c = l := by
  rw [fill, ofLine, GapText.fill_ofString]

/-- Move a line one level to the right, if it is not empty. -/
def deeper (l : GapLine) : GapLine := if l.text = [] then l else { l with level := l.level + 1 }

theorem fill_deeper (c : Char) (l : GapLine) : (l.fill c).deeper = l.deeper.fill c := by
  unfold Line.deeper deeper
  have hempty : (l.fill c).text = "" ↔ l.text = [] := GapText.fill_eq_empty_iff
  by_cases h : l.text = []
  · rw [if_pos h, if_pos (hempty.2 h)]
  · rw [if_neg h, if_neg (mt hempty.1 h)]
    rfl

/-- Drop one carriage return at the end of a line. -/
def dropReturn (l : GapLine) : GapLine :=
  match l.text.reverse with
  | some '\r' :: rest => { l with text := rest.reverse }
  | _ => l

theorem fill_dropReturn {c : Char} (hc : Filler c) (l : GapLine) :
    (l.fill c).dropReturn = l.dropReturn.fill c := by
  have hne : c ≠ '\r' := hc.ne (by decide)
  have hlist : Text.dropReturn (l.text.map (·.getD c)) = l.dropReturn.text.map (·.getD c) := by
    unfold Text.dropReturn dropReturn
    rw [← List.map_reverse]
    cases hrev : l.text.reverse with
    | nil => rfl
    | cons o rest =>
      by_cases ho : o = some '\r'
      · subst ho
        exact List.map_reverse.symm
      · have hgetD : o.getD c ≠ '\r' := by
          cases o with
          | none => exact hne
          | some d => simpa using ho
        rw [List.map_cons]
        split
        · rename_i heq
          exact absurd (List.cons.inj heq).1 hgetD
        · split
          · rename_i heq
            exact absurd (List.cons.inj heq).1 ho
          · rfl
  have hlevel : l.dropReturn.level = l.level := by
    unfold dropReturn
    split <;> rfl
  rw [Line.dropReturn, fill, fill, GapText.toList_fill, hlist, hlevel]
  rfl

end GapLine

/-- A fragment with gaps in its lines. -/
structure GapFragment where
  /-- The first line. -/
  head : GapText
  /-- The lines below it. -/
  tail : List GapLine

namespace GapFragment

/-- Fill all gaps of the fragment. -/
def fill (c : Char) (f : GapFragment) : Fragment := ⟨f.head.fill c, f.tail.map (·.fill c)⟩

/-- A fragment without gaps. -/
def ofFragment (f : Fragment) : GapFragment := ⟨.ofString f.head, f.tail.map GapLine.ofLine⟩

@[simp] theorem fill_ofFragment (c : Char) (f : Fragment) : (ofFragment f).fill c = f := by
  have htail : (f.tail.map GapLine.ofLine).map (·.fill c) = f.tail := by
    rw [List.map_map]
    exact (List.map_congr_left fun l _ => GapLine.fill_ofLine c l).trans (List.map_id _)
  rw [fill, ofFragment, GapText.fill_ofString, htail]

/-- All lines. -/
def lines (f : GapFragment) : List GapLine := ⟨0, f.head⟩ :: f.tail

theorem lines_fill (c : Char) (f : GapFragment) : (f.fill c).lines = f.lines.map (·.fill c) := rfl

theorem isEmpty_fill (c : Char) (f : GapFragment) :
    (f.fill c).isEmpty = (f.head.isEmpty && f.tail.isEmpty) := by
  have hhead : decide (f.head.fill c = "") = f.head.isEmpty := by
    rw [Bool.eq_iff_iff, decide_eq_true_iff, GapText.fill_eq_empty_iff, List.isEmpty_iff]
  rw [Fragment.isEmpty, fill, hhead]
  dsimp only
  rw [List.isEmpty_map]

/-! ## Section 3: Operations on fragments with gaps -/

/-- Continue the last of some lines with a fragment. -/
def continueWith (f : GapFragment) : List GapLine → List GapLine
  | [] => f.lines
  | [l] => { l with text := l.text ++ f.head } :: f.tail
  | l :: rest => l :: continueWith f rest

theorem fill_continueWith (c : Char) (f : GapFragment) (ls : List GapLine) :
    Fragment.continueWith (f.fill c) (ls.map (·.fill c)) = (f.continueWith ls).map (·.fill c) := by
  induction ls with
  | nil => rfl
  | cons l ls ih =>
    cases ls with
    | nil =>
      show Line.mk _ _ :: _ = GapLine.fill c ⟨_, _⟩ :: _
      rw [GapLine.fill, GapText.fill_append]
      rfl
    | cons m ls =>
      show l.fill c :: Fragment.continueWith _ _ = _ :: _
      rw [ih]

/-- Put one fragment directly behind another. -/
def append (f g : GapFragment) : GapFragment :=
  if f.tail.isEmpty then ⟨f.head ++ g.head, g.tail⟩ else ⟨f.head, continueWith g f.tail⟩

theorem fill_append (c : Char) (f g : GapFragment) :
    f.fill c ++ g.fill c = (f.append g).fill c := by
  have htail : (f.fill c).tail.isEmpty = f.tail.isEmpty := List.isEmpty_map
  rw [Fragment.append_eq, Fragment.append, append, htail]
  cases f.tail.isEmpty with
  | true => exact congrArg (Fragment.mk · _) (GapText.fill_append c f.head g.head).symm
  | false => exact congrArg (Fragment.mk _) (fill_continueWith c g f.tail)

/-- Put a fragment below another, one level to the right. -/
def nest (f body : GapFragment) : GapFragment :=
  ⟨f.head, f.tail ++ body.lines.map GapLine.deeper⟩

theorem fill_nest (c : Char) (f body : GapFragment) :
    (f.fill c).nest (body.fill c) = (f.nest body).fill c := by
  have hbody : (body.fill c).lines.map Line.deeper =
      (body.lines.map GapLine.deeper).map (·.fill c) := by
    rw [lines_fill, List.map_map, List.map_map]
    exact List.map_congr_left fun l _ => l.fill_deeper c
  rw [Fragment.nest, hbody, fill, nest, fill, List.map_append]

/-- Drop the semicolons at the end of the last of some lines. -/
def withoutSemicolons : List GapLine → List GapLine
  | [] => []
  | [l] => [{ l with text := l.text.dropSemicolons }]
  | l :: rest => l :: withoutSemicolons rest

theorem fill_withoutSemicolons {c : Char} (hc : Filler c) (ls : List GapLine) :
    Fragment.withoutSemicolons (ls.map (·.fill c)) = (withoutSemicolons ls).map (·.fill c) := by
  induction ls with
  | nil => rfl
  | cons l ls ih =>
    cases ls with
    | nil =>
      show [Line.mk _ (Text.dropSemicolons (l.text.fill c))] = _
      rw [GapText.fill_dropSemicolons hc]
      rfl
    | cons m ls =>
      show l.fill c :: Fragment.withoutSemicolons _ = _ :: _
      rw [ih]

/-- Drop the semicolons at the end of the fragment. -/
def trimSemicolons (f : GapFragment) : GapFragment :=
  if f.tail.isEmpty then ⟨f.head.dropSemicolons, []⟩ else ⟨f.head, withoutSemicolons f.tail⟩

theorem fill_trimSemicolons {c : Char} (hc : Filler c) (f : GapFragment) :
    (f.fill c).trimSemicolons = f.trimSemicolons.fill c := by
  have htail : (f.fill c).tail.isEmpty = f.tail.isEmpty := List.isEmpty_map
  rw [Fragment.trimSemicolons, trimSemicolons, htail]
  cases f.tail.isEmpty with
  | true => exact congrArg (Fragment.mk · []) (GapText.fill_dropSemicolons hc f.head)
  | false => exact congrArg (Fragment.mk _) (fill_withoutSemicolons hc f.tail)

/-! ## Section 4: Written lines with gaps -/

/-- The lines to be written. -/
def written : List GapLine → List GapLine
  | [] => []
  | [l] => [l]
  | [l, last] => if last.text = [] then [l.dropReturn] else [l.dropReturn, last]
  | l :: rest => l.dropReturn :: written rest

theorem fill_written {c : Char} (hc : Filler c) (ls : List GapLine) :
    Fragment.written (ls.map (·.fill c)) = (written ls).map (·.fill c) := by
  fun_induction written ls with
  | case1 => rfl
  | case2 l => rfl
  | case3 l last h =>
    show (if last.text.fill c = "" then _ else _) = _
    rw [if_pos (GapText.fill_eq_empty_iff.2 h), GapLine.fill_dropReturn hc]
    rfl
  | case4 l last h =>
    show (if last.text.fill c = "" then _ else _) = _
    rw [if_neg (mt GapText.fill_eq_empty_iff.1 h), GapLine.fill_dropReturn hc]
    rfl
  | case5 l rest hnil hone ih =>
    obtain ⟨m, k, ms, rfl⟩ : ∃ m k ms, rest = m :: k :: ms := by
      match rest, hnil, hone with
      | [], hnil, _ => exact absurd rfl hnil
      | [m], _, hone => exact absurd rfl (hone m)
      | m :: k :: ms, _, _ => exact ⟨m, k, ms, rfl⟩
    show (l.fill c).dropReturn :: Fragment.written _ = _ :: _
    rw [GapLine.fill_dropReturn hc, ← ih]
    rfl

end GapFragment

end JavaTree
