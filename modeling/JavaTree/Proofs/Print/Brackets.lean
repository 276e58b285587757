import JavaTree.Proofs.Print.Fragment
import JavaTree.Text.Blank

/-! # Brackets in fragments

    A text is nested if the brackets in it are, whatever stands between them
    (`Brackets.IsNested`).  A scan with a stack of the closing brackets that
    are still to come decides that (`Brackets.nested_iff`), and since it can go
    on from any stack, it says what an unfinished piece of text does too:
    `Fragment.Takes f st st'` is what `f` does to the open brackets, and a
    balanced fragment does nothing to them.

    Line breaks, levels, indentation, and the characters that trimming drops
    are no brackets.  So the brackets of a fragment are those of its parts in
    order (`Fragment.brackets_append`, `Fragment.brackets_nest`), and those of
    the written text are the same (`Fragment.filter_write`). -/

namespace JavaTree

/-! ## Section 1: Nested words -/

namespace Brackets

/-- The bracket that closes an opening one. -/
def closing? : Char → Option Char
  | '(' => some ')'
  | '[' => some ']'
  | '\x7b' => some '\x7d'
  | _ => none

/-- Whether the character is one of the six brackets. -/
def isBracket (c : Char) : Bool :=
  c = '(' || c = ')' || c = '[' || c = ']' || c = '\x7b' || c = '\x7d'

/-- The properly nested words over the three pairs of brackets. -/
inductive Nested : List Char → Prop where
  | nil : Nested []
  | pair {a b : Char} {inner rest : List Char} (closes : closing? a = some b)
      (inside : Nested inner) (behind : Nested rest) : Nested (a :: inner ++ b :: rest)

/-- A text is nested if its brackets are.  All other characters are ignored. -/
def IsNested (s : String) : Prop := Nested (s.toList.filter isBracket)

/-- Read one bracket.  The stack holds the closing brackets that are still to
    come, the next one first; a bracket that closes nothing or the wrong one
    cannot be read. -/
def step (st : List Char) (c : Char) : Option (List Char) :=
  match closing? c with
  | some b => some (b :: st)
  | none =>
    match st with
    | b :: rest => if c = b then some rest else none
    | [] => none

/-- Read a word from left to right. -/
def scan (st w : List Char) : Option (List Char) := w.foldlM step st

theorem scan_cons (st : List Char) (c : Char) (w : List Char) :
    scan st (c :: w) = (step st c).bind (scan · w) := rfl

theorem scan_append (st v w : List Char) : scan st (v ++ w) = (scan st v).bind (scan · w) :=
  List.foldlM_append

theorem step_opening {a b : Char} (h : closing? a = some b) (st : List Char) :
    step st a = some (b :: st) := by
  unfold step
  rw [h]

theorem step_closing {b : Char} (h : closing? b = none) (st : List Char) :
    step (b :: st) b = some st := by
  unfold step
  rw [h]
  exact if_pos rfl

/-- A bracket that opens nothing is read only off the stack. -/
theorem of_step_closing {c : Char} {st st' : List Char} (h : closing? c = none)
    (hstep : step st c = some st') : st = c :: st' := by
  unfold step at hstep
  rw [h] at hstep
  cases st with
  | nil => cases hstep
  | cons b rest =>
    dsimp only at hstep
    split at hstep
    · rename_i hcb
      rw [hcb, Option.some.inj hstep]
    · cases hstep

theorem closing?_of_closing? {a b : Char} (h : closing? a = some b) : closing? b = none := by
  unfold closing? at h
  split at h <;> cases h <;> rfl

/-- A nested word leaves the stack as it was. -/
theorem Nested.scan_eq {w : List Char} (h : Nested w) (st : List Char) : scan st w = some st := by
  induction h generalizing st with
  | nil => rfl
  | pair closes _ _ ihin ihbehind =>
    rw [List.cons_append, scan_cons, step_opening closes, Option.bind_some, scan_append, ihin,
      Option.bind_some, scan_cons, step_closing (closing?_of_closing? closes), Option.bind_some,
      ihbehind]

/-- The word closes the brackets of a stack, one after the other, and is nested
    before, between and behind them. -/
def ClosesAll : List Char → List Char → Prop
  | [], w => Nested w
  | b :: st, w => ∃ u v, w = u ++ b :: v ∧ Nested u ∧ ClosesAll st v

/-- A nested word in front becomes part of what is nested before the first
    bracket of the stack. -/
theorem closesAll_pair {a b : Char} {inner st w : List Char} (closes : closing? a = some b)
    (inside : Nested inner) (h : ClosesAll st w) : ClosesAll st (a :: inner ++ b :: w) := by
  cases st with
  | nil => exact Nested.pair closes inside h
  | cons d st =>
    obtain ⟨u, v, rfl, hu, hv⟩ := h
    exact ⟨a :: inner ++ b :: u, v, by simp, .pair closes inside hu, hv⟩

theorem closesAll_of_scan {st w : List Char} (h : scan st w = some []) : ClosesAll st w := by
  induction w generalizing st with
  | nil =>
    obtain rfl : st = [] := Option.some.inj h
    exact .nil
  | cons c w ih =>
    rw [scan_cons] at h
    obtain ⟨next, hstep, hscan⟩ := Option.bind_eq_some_iff.1 h
    cases hc : closing? c with
    | some b =>
      -- What is read up to `b` is inside the new pair, the rest is behind it.
      obtain rfl : b :: st = next := Option.some.inj ((step_opening hc st).symm.trans hstep)
      obtain ⟨u, v, rfl, hu, hv⟩ := ih hscan
      exact closesAll_pair hc hu hv
    | none =>
      -- The bracket closes the first of the stack, with nothing in front of it.
      obtain rfl := of_step_closing hc hstep
      exact ⟨[], w, rfl, .nil, ih hscan⟩

/-- The scan decides nesting. -/
theorem nested_iff {w : List Char} : Nested w ↔ scan [] w = some [] :=
  ⟨fun h => h.scan_eq [], closesAll_of_scan⟩

instance (s : String) : Decidable (IsNested s) :=
  decidable_of_iff _ (nested_iff (w := s.toList.filter isBracket)).symm

theorem not_isBracket_of_isBlank {c : Char} (h : Text.isBlank c = true) : isBracket c = false := by
  rw [Bool.eq_false_iff]
  intro hc
  simp only [isBracket, Bool.or_eq_true, decide_eq_true_eq] at hc
  rcases hc with ((((rfl | rfl) | rfl) | rfl) | rfl) | rfl <;> cases h

/-! ## Section 2: The brackets of a text -/

theorem filter_trimEnd (cs : List Char) :
    (Text.trimEnd cs).filter isBracket = cs.filter isBracket :=
  Text.filter_dropWhile_end (fun _ => not_isBracket_of_isBlank) cs

theorem filter_trim (cs : List Char) : (Text.trim cs).filter isBracket = cs.filter isBracket := by
  rw [Text.trim, filter_trimEnd, Text.filter_dropWhile fun _ => not_isBracket_of_isBlank]

/-- Cutting at a character that is no bracket keeps the brackets. -/
theorem filter_pieces (sep : Char) (h : isBracket sep = false) (cs : List Char) :
    (Text.pieces sep cs).flatMap (·.filter isBracket) = cs.filter isBracket := by
  induction cs with
  | nil => rfl
  | cons c cs ih =>
    rw [Text.pieces]
    split
    · rename_i hc
      rw [hc, List.filter_cons_of_neg (by simp [h]), List.flatMap_cons, ih]
      rfl
    · cases hp : Text.pieces sep cs with
      | nil => exact absurd hp (Text.pieces_ne_nil sep cs)
      | cons p ps =>
        rw [hp] at ih
        rw [List.filter_cons, ← ih]
        cases hc : isBracket c with
        | true => simp [hc]
        | false => simp [hc]

end Brackets

open Brackets

/-- The brackets of some lines, in order. -/
def Line.brackets (ls : List Line) : List Char :=
  ls.flatMap fun l => l.text.toList.filter isBracket

theorem Line.brackets_cons (l : Line) (ls : List Line) :
    brackets (l :: ls) = l.text.toList.filter isBracket ++ brackets ls := rfl

namespace Fragment

/-- The brackets of a fragment, in order. -/
def brackets (f : Fragment) : List Char := Line.brackets f.lines

theorem brackets_eq (f : Fragment) :
    f.brackets = f.head.toList.filter isBracket ++ Line.brackets f.tail := rfl

theorem brackets_ofText (s : String) : (ofText s).brackets = s.toList.filter isBracket := by
  rw [← filter_pieces '\n' rfl s.toList, ofText]
  cases Text.pieces '\n' s.toList with
  | nil => rfl
  | cons p ps =>
    rw [brackets_eq, Line.brackets, List.flatMap_map, List.flatMap_cons]
    simp only [String.toList_ofList]

theorem brackets_eq_filter (f : Fragment) : f.brackets = f.chars.filter isBracket :=
  (List.filter_flatMap ..).symm

theorem brackets_append (f g : Fragment) : (f ++ g).brackets = f.brackets ++ g.brackets := by
  simp only [brackets_eq_filter, chars_append, List.filter_append]

theorem brackets_nest (f body : Fragment) :
    (f.nest body).brackets = f.brackets ++ body.brackets := by
  simp only [brackets_eq_filter, chars_nest, List.filter_append]

theorem brackets_trimSemicolons (f : Fragment) : f.trimSemicolons.brackets = f.brackets := by
  rw [brackets_eq_filter, filter_trimSemicolons rfl, brackets_eq_filter]

/-! ## Section 3: The brackets of the written text -/

theorem filter_dropReturn (l : Line) :
    l.dropReturn.text.toList.filter isBracket = l.text.toList.filter isBracket := by
  rw [Line.dropReturn, String.toList_ofList, Text.dropReturn]
  split
  · rename_i rest hrest
    -- Only a carriage return is missing at the end.
    have htext : l.text.toList = rest.reverse ++ ['\r'] := by
      rw [← List.reverse_reverse l.text.toList, hrest, List.reverse_cons]
    rw [htext, List.filter_append]
    exact (List.append_nil _).symm
  · rfl

theorem brackets_written (ls : List Line) : Line.brackets (written ls) = Line.brackets ls := by
  induction ls using written.induct with
  | case1 => rfl
  | case2 l => rfl
  | case3 l last hlast =>
    rw [written, if_pos hlast]
    simp only [Line.brackets_cons, filter_dropReturn, hlast]
    rfl
  | case4 l last hlast =>
    rw [written, if_neg hlast]
    simp only [Line.brackets_cons, filter_dropReturn]
  | case5 l rest hone hpair ih =>
    rw [written, Line.brackets_cons, filter_dropReturn, ih, Line.brackets_cons l]
    · exact hone
    · exact hpair

/-- Indentation and a line end without brackets keep the brackets. -/
theorem filter_writeLine {layout : Layout}
    (plain : layout.lineTerminator.toList.filter isBracket = []) (l : Line) :
    (layout.writeLine l).toList.filter isBracket = l.text.toList.filter isBracket := by
  have hspaces : ∀ k, (List.replicate k ' ').filter isBracket = [] := by
    intro k
    rw [List.filter_replicate_of_neg (by decide)]
  simp only [Layout.writeLine, String.toList_append, String.toList_ofList, List.filter_append,
    hspaces, plain, List.nil_append, List.append_nil]

theorem filter_breakMarks {layout : Layout}
    (plain : layout.lineTerminator.toList.filter isBracket = []) (s : String) :
    (layout.breakMarks s).toList.filter isBracket = s.toList.filter isBracket := by
  rw [Layout.breakMarks, String.toList_ofList]
  induction s.toList with
  | nil => rfl
  | cons c cs ih =>
    rw [List.flatMap_cons, List.filter_append, ih]
    split
    · rename_i hc
      rw [plain, hc]
      rfl
    · rw [← List.filter_append]
      rfl

/-- Writing a fragment keeps its brackets. -/
theorem filter_write {layout : Layout}
    (plain : layout.lineTerminator.toList.filter isBracket = []) (f : Fragment) :
    (f.write layout).toList.filter isBracket = f.brackets := by
  have hjoin : ∀ ls : List Line,
      (String.join (ls.map layout.writeLine)).toList.filter isBracket = Line.brackets ls := by
    intro ls
    induction ls with
    | nil => rfl
    | cons l ls ih =>
      rw [List.map_cons, String.join_cons, String.toList_append, List.filter_append, ih,
        filter_writeLine plain, Line.brackets_cons]
  rw [write, filter_breakMarks plain, hjoin, brackets_written, brackets]

/-! ## Section 4: Open brackets -/

/-- Behind the fragment the closing brackets still to come are `st'` if they
    were `st` before it. -/
def Takes (f : Fragment) (st st' : List Char) : Prop := scan st f.brackets = some st'

/-- The fragment closes what it opens and nothing else. -/
def Balanced (f : Fragment) : Prop := ∀ st, f.Takes st st

/-- The fragment opens one bracket more than it closes, and `b` closes it. -/
def Opens (f : Fragment) (b : Char) : Prop := ∀ st, f.Takes st (b :: st)

/-- The fragment closes one bracket more than it opens, and does so by `b`. -/
def Closes (f : Fragment) (b : Char) : Prop := ∀ st, f.Takes (b :: st) st

theorem balanced_ofText_iff {s : String} : (ofText s).Balanced ↔ IsNested s := by
  constructor
  · intro h
    have hscan : scan [] (ofText s).brackets = some [] := h []
    rw [brackets_ofText] at hscan
    exact nested_iff.2 hscan
  · intro h st
    rw [Takes, brackets_ofText]
    exact Nested.scan_eq h st

/-- A balanced fragment is written as a nested text. -/
theorem Balanced.isNested_write {f : Fragment} (h : f.Balanced) {layout : Layout}
    (plain : layout.lineTerminator.toList.filter isBracket = []) : IsNested (f.write layout) := by
  rw [IsNested, filter_write plain]
  exact nested_iff.2 (h [])

namespace Takes

variable {f g : Fragment} {st st' st'' : List Char}

theorem text {s : String} (h : scan st (s.toList.filter isBracket) = some st') :
    (ofText s).Takes st st' := by
  rw [Takes, brackets_ofText]
  exact h

theorem append (hf : f.Takes st st') (hg : g.Takes st' st'') : (f ++ g).Takes st st'' := by
  rw [Takes, brackets_append, scan_append, show scan st f.brackets = some st' from hf]
  exact hg

theorem nest (hf : f.Takes st st') (hg : g.Takes st' st'') : (f.nest g).Takes st st'' := by
  rw [Takes, brackets_nest, scan_append, show scan st f.brackets = some st' from hf]
  exact hg

end Takes

section

variable {f g : Fragment} {b : Char}

theorem Opens.text {s : String} (h : ∀ st, scan st (s.toList.filter isBracket) = some (b :: st)) :
    (ofText s).Opens b := fun st => .text (h st)

theorem Closes.text {s : String} (h : ∀ st, scan (b :: st) (s.toList.filter isBracket) = some st) :
    (ofText s).Closes b := fun st => .text (h st)

/-- Behind an open bracket the rest of the text is in it. -/
theorem Opens.append (hf : f.Opens b) (hg : g.Balanced) : (f ++ g).Opens b :=
  fun st => (hf st).append (hg (b :: st))

theorem Opens.nest (hf : f.Opens b) (hg : g.Balanced) : (f.nest g).Opens b :=
  fun st => (hf st).nest (hg (b :: st))

theorem Opens.close (hf : f.Opens b) (hg : g.Closes b) : (f ++ g).Balanced :=
  fun st => (hf st).append (hg st)

theorem Closes.append (hf : f.Closes b) (hg : g.Balanced) : (f ++ g).Closes b :=
  fun st => (hf st).append (hg st)

theorem Balanced.opens (hf : f.Balanced) (hg : g.Opens b) : (f ++ g).Opens b :=
  fun st => (hf st).append (hg st)

end

namespace Balanced

variable {f g : Fragment}

theorem empty : Fragment.empty.Balanced := fun _ => rfl

theorem text {s : String} (h : ∀ st, scan st (s.toList.filter isBracket) = some st) :
    (ofText s).Balanced := fun st => .text (h st)

/-- A text without brackets. -/
theorem plain {s : String} (h : s.toList.filter isBracket = []) : (ofText s).Balanced := by
  apply text
  intro st
  rw [h]
  rfl

/-- A text between an opening and a closing bracket. -/
theorem enclosed {opening closing : Fragment} {b : Char} (hopening : opening.Opens b)
    (hf : f.Balanced) (hclosing : closing.Closes b) : (opening ++ f ++ closing).Balanced :=
  (hopening.append hf).close hclosing

theorem append (hf : f.Balanced) (hg : g.Balanced) : (f ++ g).Balanced :=
  fun st => (hf st).append (hg st)

theorem nest (hf : f.Balanced) (hg : g.Balanced) : (f.nest g).Balanced :=
  fun st => (hf st).nest (hg st)

theorem trimSemicolons (hf : f.Balanced) : f.trimSemicolons.Balanced := by
  intro st
  rw [Takes, brackets_trimSemicolons]
  exact hf st

theorem ite {p : Prop} [Decidable p] (hf : f.Balanced) (hg : g.Balanced) :
    (if p then f else g).Balanced := by
  split
  · exact hf
  · exact hg

theorem join {sep : String} (hsep : (ofText sep).Balanced) {fs : List Fragment}
    (h : ∀ f ∈ fs, f.Balanced) : (Fragment.join sep fs).Balanced := by
  induction fs with
  | nil => exact .empty
  | cons f fs ih =>
    have hf := h f List.mem_cons_self
    have hfs := ih fun g hg => h g (List.mem_cons_of_mem f hg)
    cases fs with
    | nil => exact hf
    | cons g fs => exact hf.append (hsep.append hfs)

theorem joinEnding {ending : String} (hending : (ofText ending).Balanced) {fs : List Fragment}
    (h : ∀ f ∈ fs, f.Balanced) : (Fragment.joinEnding ending fs).Balanced := by
  induction fs with
  | nil => exact .empty
  | cons f fs ih =>
    have hfs := ih fun g hg => h g (List.mem_cons_of_mem f hg)
    exact (h f List.mem_cons_self).append (hending.append hfs)

end Balanced

end Fragment

end JavaTree
