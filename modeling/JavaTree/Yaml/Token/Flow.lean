import JavaTree.Yaml.Input
import JavaTree.Text.Decimal

/-! # Scalars that run on over gaps

    Plain and quoted scalars may hold blanks and line breaks between their
    words.  Blanks within a line stay as they are; a single line break
    becomes a space, and of several the first is dropped.

    Each reader is a fold over the characters: it holds the text read so far
    and the gap it has met since. -/

namespace JavaTree.Yaml

/-! ## Section 1: Gaps between words -/

/-- What was met since the last word, newest first. -/
inductive Gap where
  | none
  /-- Blanks on one line. -/
  | blanks (cs : List Char)
  /-- A first line break, if it counts, and further ones. -/
  | broken (first : Option Char) (more : List Char)

namespace Gap

/-- Add a blank or a line break.  Blanks around line breaks do not count. -/
def add (g : Gap) (c : Char) : Gap :=
  if isBreak c then
    match g with
    | .broken first more => .broken first (c :: more)
    | _ => .broken (some c) []
  else
    match g with
    | .none => .blanks [c]
    | .blanks cs => .blanks (c :: cs)
    | g => g

/-- What the gap contributes to a text, newest first. -/
def folded : Gap → List Char
  | .none => []
  | .blanks cs => cs
  | .broken (some '\n') [] => [' ']
  | .broken (some '\n') more => more
  | .broken first more => more ++ first.toList

/-- Whether a line break was met. -/
def crossesLine : Gap → Bool
  | .broken _ _ => true
  | _ => false

/-- Whether nothing was met. -/
def isNone : Gap → Bool
  | .none => true
  | _ => false

end Gap

/-! ## Section 2: Plain scalars -/

/-- What surrounds a plain scalar. -/
structure PlainContext where
  /-- Whether it stands inside brackets. -/
  flow : Bool
  /-- The least column of its further lines, outside brackets. -/
  indent : Nat

/-- Whether the character closes or divides a collection in brackets. -/
def isFlowIndicator (c : Char) : Bool := [',', '[', ']', '\x7b', '\x7d'].contains c

/-- The text of a scalar, the input after it, and whether the last gap ended
    a line. -/
structure ScalarRead where
  text : String
  input : Input
  crossedLine : Bool := false

/-- The scalar that ends before `input`, after a gap. -/
def ScalarRead.ending (text : List Char) (gap : Gap) (input : Input) : ScalarRead :=
  ⟨String.ofList text.reverse, input, gap.crossesLine⟩

/-- Read on in a plain scalar. -/
def readPlain (ctx : PlainContext) :
    List Char → Mark → (text : List Char) → Gap → Option ScalarRead
  | [], m, text, gap => some (.ending text gap ⟨[], m⟩)
  | c :: rest, m, text, gap =>
    if isGap c then
      -- Tabs cannot indent the further lines.
      if gap.crossesLine && c = '\t' && m.column < ctx.indent then none
      else readPlain ctx rest (m.after c) text (gap.add c)
    else if (!gap.isNone && (c = '#' || (!ctx.flow && m.column < ctx.indent)))
        || (m.column = 0 && isDocumentMark (c :: rest)) then
      some (.ending text gap ⟨c :: rest, m⟩)
    -- A colon pressed against a bracket is neither text nor the end of a key.
    else if ctx.flow && c = ':' && (rest.head?.map fun d => d = '?' || isFlowIndicator d).getD false
    then none
    else if (c = ':' && isGapOrEnd rest.head?) || (ctx.flow && isFlowIndicator c) then
      some (.ending text gap ⟨c :: rest, m⟩)
    else readPlain ctx rest (m.after c) (c :: (gap.folded ++ text)) .none

/-! ## Section 3: Quoted scalars -/

/-- Read on in a scalar in single quotes, after the first. -/
def readSingle : List Char → Mark → (text : List Char) → Gap → Option ScalarRead
  | [], _, _, _ => none
  | '\x27' :: '\x27' :: rest, m, text, gap =>
    readSingle rest ((m.after '\x27').after '\x27') ('\x27' :: (gap.folded ++ text)) .none
  | c :: rest, m, text, gap =>
    if isGap c then readSingle rest (m.after c) text (gap.add c)
    else if m.column = 0 && isDocumentMark (c :: rest) then none
    else
      let text := gap.folded ++ text
      if c = '\x27' then some { text := String.ofList text.reverse, input := ⟨rest, m.after c⟩ }
      else readSingle rest (m.after c) (c :: text) .none

/-- The character an escape of one letter stands for. -/
def unescape? : Char → Option Char
  | '0' => some '\x00'
  | 'a' => some '\x07'
  | 'b' => some '\x08'
  | 't' => some '\t'
  | '\t' => some '\t'
  | 'n' => some '\n'
  | 'v' => some '\x0b'
  | 'f' => some '\x0c'
  | 'r' => some '\r'
  | 'e' => some '\x1b'
  | ' ' => some ' '
  | '"' => some '"'
  | '/' => some '/'
  | '\\' => some '\\'
  | 'N' => some '\x85'
  | '_' => some '\xa0'
  | 'L' => some '\u2028'
  | 'P' => some '\u2029'
  | _ => none

/-- The number of digits after the letter of a numeric escape. -/
def escapeWidth? : Char → Option Nat
  | 'x' => some 2
  | 'u' => some 4
  | 'U' => some 8
  | _ => none

/-- The character with a code point. -/
def charOfCode? (n : Nat) : Option Char :=
  if n.isValidChar then some (Char.ofNat n) else none

/-- Where a reader of a scalar in double quotes is. -/
inductive QuotedState where
  /-- Between characters. -/
  | text
  /-- After a backslash. -/
  | escape
  /-- Inside a numeric escape: the digits still to come, and the value. -/
  | code (missing value : Nat)

/-- Read on in a scalar in double quotes, after the first. -/
def readDouble : List Char → Mark → QuotedState → (text : List Char) → Gap → Option ScalarRead
  | [], _, _, _, _ => none
  | c :: rest, m, .escape, text, gap =>
    -- A backslash at the end of a line hides the line break.
    if isBreak c then readDouble rest (m.after c) .text text (.broken none [])
    else
      match unescape? c, escapeWidth? c with
      | some d, _ => readDouble rest (m.after c) .text (d :: text) gap
      | none, some width => readDouble rest (m.after c) (.code width 0) text gap
      | none, none => none
  | c :: rest, m, .code missing value, text, gap =>
    if !Decimal.isDigitIn 16 c then none
    else
      let value := value * 16 + Decimal.digitValue c
      if missing ≤ 1 then
        match charOfCode? value with
        | some d => readDouble rest (m.after c) .text (d :: text) gap
        | none => none
      else readDouble rest (m.after c) (.code (missing - 1) value) text gap
  | c :: rest, m, .text, text, gap =>
    if isGap c then readDouble rest (m.after c) .text text (gap.add c)
    else if m.column = 0 && isDocumentMark (c :: rest) then none
    else
      let text := gap.folded ++ text
      if c = '"' then some { text := String.ofList text.reverse, input := ⟨rest, m.after c⟩ }
      else if c = '\\' then readDouble rest (m.after c) .escape text .none
      else readDouble rest (m.after c) .text (c :: text) .none

end JavaTree.Yaml
