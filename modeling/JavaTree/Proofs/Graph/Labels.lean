import JavaTree.Graph

/-! # Labels of a graph

    A label may hold any text, and the statement that it stands in must still
    be one line.  Escaping leaves no line break (`Label.newline_not_mem_escape`)
    and loses nothing (`Label.escape_injective`), and no other part of a
    statement holds a line break either. -/

namespace JavaTree

namespace Label

/-! ## Section 1: Escaping -/

/-- Undo the escapes of a label, from left to right. -/
def unescape : List Char → List Char
  | '\\' :: 'n' :: rest => '\n' :: unescape rest
  | '\\' :: c :: rest => c :: unescape rest
  | c :: rest => c :: unescape rest
  | [] => []

theorem unescape_escapeChar (c : Char) (rest : List Char) :
    unescape (escapeChar c ++ rest) = c :: unescape rest := by
  unfold escapeChar
  split
  case h_4 hslash _ _ =>
    -- A character that is not escaped is no backslash, so it is kept.
    rw [List.singleton_append, unescape]
    all_goals simp_all
  all_goals rfl

theorem unescape_escape (s : String) : unescape (escape s).toList = s.toList := by
  rw [escape, String.toList_ofList]
  induction s.toList with
  | nil => rfl
  | cons c cs ih => rw [List.flatMap_cons, unescape_escapeChar, ih]

/-- Different texts have different escaped forms. -/
theorem escape_injective {s t : String} (h : escape s = escape t) : s = t := by
  apply String.toList_inj.1
  rw [← unescape_escape s, h, unescape_escape]

theorem newline_not_mem_escape (s : String) : '\n' ∉ (escape s).toList := by
  rw [escape, String.toList_ofList]
  intro h
  obtain ⟨c, -, hc⟩ := List.mem_flatMap.1 h
  unfold escapeChar at hc
  split at hc
  case h_4 hnewline =>
    rw [List.mem_singleton] at hc
    exact hnewline hc.symm
  all_goals exact absurd hc (by decide)

end Label

/-! ## Section 2: Statements are lines -/

theorem newline_not_mem_toDigits (n : Nat) : '\n' ∉ Nat.toDigits 10 n := by
  intro h
  have hdigit := Nat.isDigit_of_mem_toDigits (by decide) (by decide) h
  exact absurd hdigit (by decide)

theorem Span.newline_not_mem_display (s : Span) : '\n' ∉ s.display.toList := by
  simp [display, Position.display, newline_not_mem_toDigits]

namespace Graph

theorem newline_not_mem_style (f : Family) :
    '\n' ∉ (style f).1.toList ∧ '\n' ∉ (style f).2.toList := by
  cases f <;> decide

theorem newline_not_mem_nodeLine (styled : Bool) (id : Nat) (n : Cursor) :
    '\n' ∉ (nodeLine styled id n).toList := by
  have hid := newline_not_mem_toDigits id
  have hlabel := Label.newline_not_mem_escape n.label
  cases styled with
  | false => simp [nodeLine, nodeName, hid, hlabel]
  | true =>
    obtain ⟨hshape, hfill⟩ := newline_not_mem_style n.kind.family
    cases hrange : n.range? with
    | none => simp [nodeLine, nodeName, hid, hlabel, hshape, hfill, hrange]
    | some span =>
      simp [nodeLine, nodeName, hid, hlabel, hshape, hfill, hrange, span.newline_not_mem_display]

theorem newline_not_mem_edgeLine (parent id : Nat) : '\n' ∉ (edgeLine parent id).toList := by
  simp [edgeLine, nodeName, newline_not_mem_toDigits]

theorem newline_not_mem_header (styled : Bool) : ∀ l ∈ header styled, '\n' ∉ l.toList := by
  cases styled <;> decide

end Graph

end JavaTree
