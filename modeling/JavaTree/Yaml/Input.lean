/-! # Where a reader stands in a YAML text

    An `Input` is the part of a text that is still to be read, and the line
    and column where it starts.  Before reading, every kind of line end but
    the two separators of Unicode becomes a line feed, so that a line break
    is always one character.

    A text is checked piece by piece.  If a piece holds a character that no
    text may hold, what stands before that piece can still be read. -/

namespace JavaTree.Yaml

/-! ## Section 1: Characters -/

/-- Whether the character ends a line. -/
def isBreak (c : Char) : Bool :=
  c = '\n' || c = '\r' || c = '\x85' || c = '\u2028' || c = '\u2029'

/-- Whether the character is a space or a tab. -/
def isBlank (c : Char) : Bool := c = ' ' || c = '\t'

/-- Whether the character is a blank or ends a line. -/
def isGap (c : Char) : Bool := isBlank c || isBreak c

/-- Whether there is no character, or one that sets words apart. -/
def isGapOrEnd : Option Char → Bool
  | some c => isGap c || c = '\x00'
  | none => true

/-- Whether the character can be written as it is. -/
def isPrintable (c : Char) : Bool :=
  let n := c.toNat
  n = 0x0A || (0x20 ≤ n && n ≤ 0x7E) || (0xA0 ≤ n && n ≤ 0xD7FF)
    || (0xE000 ≤ n && n ≤ 0xFFFD && n ≠ 0xFEFF) || 0x10000 ≤ n

/-- Whether the character may stand in a text at all. -/
def isAllowed (c : Char) : Bool :=
  let n := c.toNat
  n = 0x09 || n = 0x0A || n = 0x0D || (0x20 ≤ n && n ≤ 0x7E) || n = 0x85
    || (0xA0 ≤ n && n ≤ 0xD7FF) || (0xE000 ≤ n && n ≤ 0xFFFD) || 0x10000 ≤ n

/-- Whether the character can stand in the name of an anchor or in a tag
    handle. -/
def isWordChar (c : Char) : Bool :=
  ('0' ≤ c && c ≤ '9') || ('A' ≤ c && c ≤ 'Z') || ('a' ≤ c && c ≤ 'z') || c = '_' || c = '-'

/-! ## Section 2: Places -/

/-- A place in a text, counted from zero. -/
structure Mark where
  /-- The number of bytes before it. -/
  index : Nat := 0
  /-- The number of lines before it. -/
  line : Nat := 0
  /-- The number of characters before it on its line. -/
  column : Nat := 0
  deriving DecidableEq, Repr

/-- The place after a character. -/
def Mark.after (m : Mark) (c : Char) : Mark :=
  if isBreak c then ⟨m.index + c.utf8Size, m.line + 1, 0⟩
  else ⟨m.index + c.utf8Size, m.line, m.column + 1⟩

/-! ## Section 3: What is still to be read -/

/-- The rest of a text and the place where it starts. -/
structure Input where
  /-- The characters still to be read. -/
  rest : List Char
  /-- Where the first of them stands. -/
  mark : Mark := {}
  deriving DecidableEq, Repr

namespace Input

/-- The input after one character. -/
def advance (i : Input) : Input :=
  match i.rest with
  | [] => i
  | c :: rest => ⟨rest, i.mark.after c⟩

/-- The input after some characters. -/
def drop : Nat → Input → Input
  | 0, i => i
  | n + 1, i => drop n i.advance

/-- The longest run of characters of a class, and the input after it. -/
def span (p : Char → Bool) (i : Input) : List Char × Input :=
  let run := i.rest.takeWhile p
  (run, i.drop run.length)

/-- The input after the longest run of characters of a class. -/
def dropWhile (p : Char → Bool) (i : Input) : Input := (i.span p).2

/-- The input after a given character, if it comes next. -/
def skip? (c : Char) (i : Input) : Option Input :=
  if i.rest.head? = some c then some i.advance else none

/-- Whether a gap or the end of the text comes next. -/
def atGap (i : Input) : Bool := isGapOrEnd i.rest.head?

/-- Whether the line ends here. -/
def atLineEnd (i : Input) : Bool := (i.rest.head?.map isBreak).getD true

/-- The next line, if only blanks and a comment are left on this one. -/
def nextLine? (i : Input) : Option Input :=
  let i := i.dropWhile isBlank
  let i := if i.rest.head? = some '#' then i.dropWhile (!isBreak ·) else i
  if i.atLineEnd then some i.advance else none

end Input

/-- Whether the characters at the start of a line mark the start or the end
    of a document. -/
def isDocumentMark (cs : List Char) : Bool :=
  (cs.take 3 = ['-', '-', '-'] || cs.take 3 = ['.', '.', '.']) && isGapOrEnd cs[3]?

/-! ## Section 4: Whole texts -/

/-- Add a character with its line end unified to a text, newest first.  A
    line feed after a carriage return belongs to the same line end. -/
def addUnified (text : List Char × Bool) (c : Char) : List Char × Bool :=
  if c = '\n' && text.2 then (text.1, false)
  else if c = '\r' || c = '\x85' then ('\n' :: text.1, c = '\r')
  else (c :: text.1, false)

/-- Line ends as line feeds.  The separators of Unicode stay. -/
def unifyBreaks (cs : List Char) : List Char := (cs.foldl addUnified ([], false)).1.reverse

/-- The number of bytes that are checked at a time. -/
def pieceSize : Nat := 16384

/-- The state of checking a text. -/
structure CheckedText where
  /-- The characters of the earlier pieces, newest first. -/
  earlier : List Char := []
  /-- The characters of the current piece, newest first. -/
  current : List Char := []
  /-- The number of bytes of the current piece. -/
  size : Nat := 0
  /-- Whether all characters are such as a text may hold. -/
  whole : Bool := true

/-- Check a character.  One that does not fit begins the next piece. -/
def CheckedText.add (t : CheckedText) (c : Char) : CheckedText :=
  if !t.whole then t
  else
    let t : CheckedText :=
      if t.size + c.utf8Size ≤ pieceSize then t else { earlier := t.current ++ t.earlier }
    if isAllowed c then { t with current := c :: t.current, size := t.size + c.utf8Size }
    else { t with whole := false }

/-- What can be read of a text, and whether that is all of it. -/
def Input.ofText (text : String) : Input × Bool :=
  let t := text.toList.foldl CheckedText.add {}
  let cs := if t.whole then t.current ++ t.earlier else t.earlier
  (⟨unifyBreaks cs.reverse, {}⟩, t.whole)

end JavaTree.Yaml
