import JavaTree.Proofs.Graph.Labels
import Mathlib.Algebra.Ring.Parity
import Mathlib.Data.List.Induction

/-! # Labels stay inside their quotes

    A label stands between double quotes, and a backslash takes the character
    behind it literally.  So the label is over at the first quote that is not
    behind an odd number of backslashes, and the quote that closes it must
    not be behind one either.  Backslashes come in pairs or in front of a
    quote or an `n`: what is written for a character never leaves a single
    backslash at the end (`even_backslashes`), and a quote is only ever
    written behind one (`odd_backslashes`).

    The main statement is `escape_stays_quoted`. -/

namespace JavaTree.Label

/-! ## Section 1: One pass or three -/

/-- Write a text in place of every occurrence of a character. -/
def replaceAll (c : Char) (written cs : List Char) : List Char :=
  cs.flatMap fun d => if d = c then written else [d]

/-- Escaping one kind of character after the other. -/
def escapeInTurn (cs : List Char) : List Char :=
  replaceAll '\n' ['\\', 'n'] (replaceAll '"' ['\\', '"'] (replaceAll '\\' ['\\', '\\'] cs))

/-- What is written for a character. -/
theorem escapeChar_cases (c : Char) :
    (c = '\\' ∧ escapeChar c = ['\\', '\\']) ∨ (c = '"' ∧ escapeChar c = ['\\', '"']) ∨
      (c = '\n' ∧ escapeChar c = ['\\', 'n']) ∨
      (c ≠ '\\' ∧ c ≠ '"' ∧ c ≠ '\n' ∧ escapeChar c = [c]) := by
  unfold escapeChar
  split
  case h_1 => exact .inl ⟨rfl, rfl⟩
  case h_2 => exact .inr (.inl ⟨rfl, rfl⟩)
  case h_3 => exact .inr (.inr (.inl ⟨rfl, rfl⟩))
  case h_4 hslash hquote hnewline => exact .inr (.inr (.inr ⟨hslash, hquote, hnewline, rfl⟩))

/-- A later pass finds nothing in what an earlier one has written, so three
    passes do what one does.  Backslashes have to come first. -/
theorem toList_escape_eq (s : String) : (escape s).toList = escapeInTurn s.toList := by
  rw [escape, String.toList_ofList, escapeInTurn, replaceAll, replaceAll, replaceAll,
    List.flatMap_assoc, List.flatMap_assoc]
  congr 1
  funext c
  rcases escapeChar_cases c with
    ⟨rfl, hc⟩ | ⟨rfl, hc⟩ | ⟨rfl, hc⟩ | ⟨hslash, hquote, hnewline, hc⟩
  · exact hc
  · exact hc
  · exact hc
  · simp [hc, hslash, hquote, hnewline]

/-! ## Section 2: Runs of backslashes -/

/-- How many backslashes a text ends in. -/
def backslashes (cs : List Char) : Nat := (cs.reverse.takeWhile (· = '\\')).length

theorem backslashes_concat (cs : List Char) : backslashes (cs ++ ['\\']) = backslashes cs + 1 := by
  simp [backslashes]

theorem backslashes_concat_of_ne {c : Char} (h : c ≠ '\\') (cs : List Char) :
    backslashes (cs ++ [c]) = 0 := by
  simp [backslashes, h]

/-- What is written ends in pairs of backslashes. -/
theorem even_backslashes (cs : List Char) : Even (backslashes (cs.flatMap escapeChar)) := by
  induction cs using List.reverseRecOn with
  | nil => exact ⟨0, rfl⟩
  | append_singleton cs c ih =>
    rw [List.flatMap_append, List.flatMap_singleton]
    rcases escapeChar_cases c with ⟨-, hc⟩ | ⟨-, hc⟩ | ⟨-, hc⟩ | ⟨hslash, -, -, hc⟩
    · rw [hc, List.append_cons, backslashes_concat, backslashes_concat]
      exact ih.add_one.add_one
    · rw [hc, List.append_cons, backslashes_concat_of_ne (by decide)]
      exact ⟨0, rfl⟩
    · rw [hc, List.append_cons, backslashes_concat_of_ne (by decide)]
      exact ⟨0, rfl⟩
    · rw [hc, backslashes_concat_of_ne hslash]
      exact ⟨0, rfl⟩

/-- Of what is written for a character, only a quote behind a backslash holds
    a quote. -/
theorem eq_of_escapeChar_eq {c : Char} {w v : List Char} (h : escapeChar c = w ++ '"' :: v) :
    w = ['\\'] := by
  have hquote : '"' ∈ escapeChar c := by
    rw [h]
    exact List.mem_append_right w List.mem_cons_self
  rcases escapeChar_cases c with ⟨-, hc⟩ | ⟨-, hc⟩ | ⟨-, hc⟩ | ⟨-, hne, -, hc⟩
  · rw [hc] at hquote
    exact absurd hquote (by decide)
  · -- The backslash comes first, and only the quote is left behind it.
    rw [hc] at h
    match w, h with
    | [_], h => rw [(List.cons.inj h).1]
    | _ :: _ :: w, h =>
      have hlength := congrArg List.length h
      simp at hlength
  · rw [hc] at hquote
    exact absurd hquote (by decide)
  · rw [hc, List.mem_singleton] at hquote
    exact absurd hquote.symm hne

/-- A quote is written behind one backslash that belongs to it, and behind
    pairs of others. -/
theorem odd_backslashes {cs u v : List Char} (h : cs.flatMap escapeChar = u ++ '"' :: v) :
    Odd (backslashes u) := by
  induction cs using List.reverseRecOn generalizing v with
  | nil => cases u <;> cases h
  | append_singleton cs c ih =>
    rw [List.flatMap_append, List.flatMap_singleton] at h
    rcases List.append_eq_append_iff.1 h with ⟨w, rfl, hw⟩ | ⟨w, hw, hrest⟩
    · -- The quote is in what is written for the last character.
      rw [eq_of_escapeChar_eq hw, backslashes_concat]
      exact (even_backslashes cs).add_one
    · cases w with
      | nil => cases eq_of_escapeChar_eq (w := []) hrest.symm
      | cons d w =>
        obtain ⟨rfl, -⟩ := List.cons.inj hrest
        exact ih hw

/-! ## Section 3: Reading up to the closing quote -/

/-- Read a label from behind its opening quote: the label, and what follows
    its closing quote. -/
def unquote? : List Char → Option (List Char × List Char)
  | [] => none
  | '"' :: rest => some ([], rest)
  | '\\' :: 'n' :: rest => (unquote? rest).map fun (t, rest) => ('\n' :: t, rest)
  | '\\' :: c :: rest => (unquote? rest).map fun (t, rest) => (c :: t, rest)
  | c :: rest => (unquote? rest).map fun (t, rest) => (c :: t, rest)

theorem unquote?_escapeChar (c : Char) (cs : List Char) :
    unquote? (escapeChar c ++ cs) = (unquote? cs).map fun (t, rest) => (c :: t, rest) := by
  rcases escapeChar_cases c with ⟨rfl, hc⟩ | ⟨rfl, hc⟩ | ⟨rfl, hc⟩ | ⟨hslash, hquote, -, hc⟩
  · rfl
  · rfl
  · rfl
  · -- A character that is written as itself neither ends the label nor escapes.
    rw [hc, List.singleton_append, unquote?]
    all_goals simp_all

/-- Between its quotes an escaped label is read as it was. -/
theorem unquote?_escape (s : String) (rest : List Char) :
    unquote? ((escape s).toList ++ '"' :: rest) = some (s.toList, rest) := by
  rw [escape, String.toList_ofList]
  induction s.toList with
  | nil => rfl
  | cons c cs ih =>
    rw [List.flatMap_cons, List.append_assoc, unquote?_escapeChar, ih]
    rfl

/-! ## Section 4: Main statement -/

/-- Escaping is lossless, and an escaped label cannot break out of its quotes.

    Whether the characters are escaped in one pass or kind by kind, no line
    break is left, every quote is behind an odd number of backslashes, and the
    number of backslashes at the end is even.  So a reader comes to the end of
    the label at the closing quote and nowhere else, and has read the text
    that was escaped; different texts are escaped differently. -/
theorem escape_stays_quoted :
    (∀ s : String,
      (escape s).toList = escapeInTurn s.toList ∧
      '\n' ∉ (escape s).toList ∧
      (∀ u v, (escape s).toList = u ++ '"' :: v → Odd (backslashes u)) ∧
      Even (backslashes (escape s).toList) ∧
      unescape (escape s).toList = s.toList ∧
      ∀ rest, unquote? ((escape s).toList ++ '"' :: rest) = some (s.toList, rest)) ∧
    Function.Injective escape := by
  refine ⟨fun s => ⟨toList_escape_eq s, newline_not_mem_escape s, ?_, ?_, unescape_escape s,
    unquote?_escape s⟩, fun _ _ => escape_injective⟩
  · intro u v h
    rw [escape, String.toList_ofList] at h
    exact odd_backslashes h
  · rw [escape, String.toList_ofList]
    exact even_backslashes s.toList

-- A backslash in front of an `n` is no line break.
example : (escape "\\n").toList = "\\\\n".toList ∧ (escape "\n").toList = "\\n".toList := by
  decide

end JavaTree.Label
