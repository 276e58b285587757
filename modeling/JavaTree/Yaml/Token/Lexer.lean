import JavaTree.Yaml.Token.Block
import JavaTree.Yaml.Token.Flow
import JavaTree.Yaml.Token.Property

/-! # Cutting a text into tokens

    A key need not be marked as one: only the colon after it tells.  The
    lexer therefore remembers, for every open bracket, the last place where
    such a key may have started, and puts `key` there (and the start of a
    block, if one begins) when it meets the colon.  The place is forgotten at
    the end of its line and after `keySpan` bytes.

    A token at or after a remembered place is not settled yet.  If the text
    turns out to be broken, `tokenize` gives the settled tokens only. -/

namespace JavaTree.Yaml

/-! ## Section 1: State -/

/-- A place where an unmarked key may have started. -/
structure KeyPlace where
  /-- Whether a key must have started here: nothing else can stand in the
      column of an open block. -/
  required : Bool
  /-- The number of tokens before it. -/
  number : Nat
  mark : Mark

/-- The greatest number of bytes from the start of an unmarked key to its
    colon. -/
def keySpan : Nat := 1024

/-- Whether a place is left too far behind. -/
def KeyPlace.isStale (k : KeyPlace) (m : Mark) : Bool :=
  k.mark.line < m.line || k.mark.index + keySpan < m.index

/-- The state of the lexer. -/
structure Lexer where
  input : Input
  /-- Whether the text can be read to its end. -/
  whole : Bool := true
  /-- The tokens found, newest first. -/
  tokens : List Token := []
  /-- The number of tokens found. -/
  count : Nat := 0
  /-- The columns of the open blocks, innermost first. -/
  indents : List Nat := []
  /-- Whether an unmarked key may start here. -/
  keyAllowed : Bool := true
  /-- Where an unmarked key may have started, inside the innermost bracket. -/
  place : Option KeyPlace := none
  /-- Where one may have started around each open bracket, innermost first. -/
  outer : List (Option KeyPlace) := []

namespace Lexer

/-- Whether a bracket is open. -/
def inFlow (l : Lexer) : Bool := !l.outer.isEmpty

/-- The column of the next character. -/
def column (l : Lexer) : Nat := l.input.mark.column

/-- Whether some characters, or the end of the text before them, can be
    seen from here. -/
def sees (l : Lexer) (count : Nat) : Bool := l.whole || (l.input.rest.take count).length = count

/-- Add a token at the end. -/
def emit (l : Lexer) (t : Token) : Lexer :=
  { l with tokens := t :: l.tokens, count := l.count + 1 }

/-- Put a token before all but the first `number`. -/
def insert (l : Lexer) (number : Nat) (t : Token) : Lexer :=
  { l with tokens := l.tokens.insertIdx (l.count - number) t, count := l.count + 1 }

/-! ## Section 2: Blocks -/

/-- Open a block at a column, unless one is open there.  Its start is put
    before all but the first `number` tokens. -/
def openBlock (l : Lexer) (column number : Nat) (start : Token) : Lexer :=
  let isNew :=
    match l.indents with
    | [] => true
    | indent :: _ => indent < column
  if !l.inFlow && isNew then { l.insert number start with indents := column :: l.indents } else l

/-- Close the blocks whose column satisfies `p`, from the innermost on. -/
def closeBlocksWhere (l : Lexer) (p : Nat → Bool) : Lexer :=
  if l.inFlow then l
  else
    let closed := (l.indents.takeWhile p).length
    { l with
      indents := l.indents.drop closed
      tokens := List.replicate closed .blockEnd ++ l.tokens
      count := l.count + closed }

/-- Close all blocks. -/
def closeBlocks (l : Lexer) : Lexer := l.closeBlocksWhere fun _ => true

/-! ## Section 3: Places of keys -/

/-- Forget the place of a key.  Fails if a key was required there. -/
def forgetPlace? (l : Lexer) : Option Lexer :=
  match l.place with
  | some k => if k.required then none else some { l with place := none }
  | none => some l

/-- Remember this place, if a key may start here. -/
def rememberPlace? (l : Lexer) : Option Lexer :=
  if l.keyAllowed then do
    let l ← l.forgetPlace?
    -- In the column of an open block only its next key can stand.
    let required := !l.inFlow && l.indents.head? = some l.column
    return { l with place := some ⟨required, l.count, l.input.mark⟩ }
  else some l

/-- A place, unless it is left too far behind; fails if a key was required
    there. -/
def freshPlace? (m : Mark) : Option KeyPlace → Option (Option KeyPlace)
  | none => some none
  | some k => if !k.isStale m then some (some k) else if k.required then none else some none

/-- Forget the places that are left too far behind. -/
def forgetStale? (l : Lexer) : Option Lexer := do
  let place ← freshPlace? l.input.mark l.place
  let outer ← l.outer.mapM (freshPlace? l.input.mark)
  return { l with place, outer }

/-- The tokens before which nothing can be put any more, in order: those
    before every place that is remembered. -/
def settled (l : Lexer) : List Token :=
  let places := (l.place :: l.outer).filterMap id
  l.tokens.reverse.take (places.foldl (fun n k => min n k.number) l.count)

/-! ## Section 4: Between tokens -/

/-- Pass over blanks, comments and line ends.  A tab counts as a blank where
    no key may start; after a line end, outside brackets, one may. -/
def skipGap (flow : Bool) : List Char → Mark → (keyAllowed comment : Bool) → Input × Bool
  | [], m, keyAllowed, _ => (⟨[], m⟩, keyAllowed)
  | c :: rest, m, keyAllowed, comment =>
    if isBreak c then skipGap flow rest (m.after c) (keyAllowed || !flow) false
    else if comment || c = '#' then skipGap flow rest (m.after c) keyAllowed true
    else if c = ' ' || (c = '\t' && (flow || !keyAllowed)) || (c = '\uFEFF' && m.column = 0) then
      skipGap flow rest (m.after c) keyAllowed false
    else (⟨c :: rest, m⟩, keyAllowed)

/-- Move to the next token. -/
def toNextToken (l : Lexer) : Lexer :=
  let (input, keyAllowed) := skipGap l.inFlow l.input.rest l.input.mark l.keyAllowed false
  { l with input, keyAllowed }

/-! ## Section 5: Tokens -/

/-- Take in a token that ends before the given input. -/
def take (l : Lexer) (keyAllowed : Bool) (token : Token × Input) : Lexer :=
  { l.emit token.1 with input := token.2, keyAllowed }

/-- The end of the text.  It counts as the start of a line. -/
def takeEnd? (l : Lexer) : Option Lexer := do
  let mark := l.input.mark
  let mark := if mark.column = 0 then mark else { mark with line := mark.line + 1, column := 0 }
  let l := { l with input := ⟨[], mark⟩ }.closeBlocks
  let l ← l.forgetPlace?
  return l.take false (.streamEnd, l.input)

/-- A directive. -/
def takeDirective? (l : Lexer) : Option Lexer := do
  let l ← l.closeBlocks.forgetPlace?
  return l.take false (← readDirective? l.input.advance)

/-- The start or the end of a document. -/
def takeDocumentMark? (l : Lexer) (token : Token) : Option Lexer := do
  let l ← l.closeBlocks.forgetPlace?
  return l.take false (token, l.input.drop 3)

/-- An opening bracket. -/
def takeOpening? (l : Lexer) (token : Token) : Option Lexer := do
  let l ← l.rememberPlace?
  let l := l.take true (token, l.input.advance)
  return { l with place := none, outer := l.place :: l.outer }

/-- A closing bracket. -/
def takeClosing? (l : Lexer) (token : Token) : Option Lexer := do
  let l ← l.forgetPlace?
  let l := l.take false (token, l.input.advance)
  return match l.outer with
    | [] => l
    | place :: outer => { l with place, outer }

/-- A comma between items. -/
def takeComma? (l : Lexer) : Option Lexer := do
  let l ← l.forgetPlace?
  return l.take true (.flowEntry, l.input.advance)

/-- The dash before an item. -/
def takeDash? (l : Lexer) : Option Lexer := do
  if !l.inFlow && !l.keyAllowed then none
  let l ← (l.openBlock l.column l.count .blockSequenceStart).forgetPlace?
  return l.take true (.blockEntry, l.input.advance)

/-- The question mark before a key. -/
def takeKeyMark? (l : Lexer) : Option Lexer := do
  if !l.inFlow && !l.keyAllowed then none
  let l ← (l.openBlock l.column l.count .blockMappingStart).forgetPlace?
  return l.take (!l.inFlow) (.key, l.input.advance)

/-- The colon before a value. -/
def takeColon? (l : Lexer) : Option Lexer :=
  match l.place with
  | some k =>
    -- The key came first: mark it, and open its block unless one is open there.
    let l := (l.insert k.number .key).openBlock k.mark.column k.number .blockMappingStart
    some { l.take false (.value, l.input.advance) with place := none }
  | none =>
    if !l.inFlow && !l.keyAllowed then none
    else
      -- The entry starts with its colon, so the key is empty.
      let l := l.openBlock l.column l.count .blockMappingStart
      some (l.take (!l.inFlow) (.value, l.input.advance))

/-- An anchor, or an alias if `wrap` makes one. -/
def takeAnchor? (l : Lexer) (wrap : String → Token) : Option Lexer := do
  let l ← l.rememberPlace?
  let (name, input) ← readAnchor? l.input.advance
  return l.take false (wrap name, input)

/-- A tag. -/
def takeTag? (l : Lexer) : Option Lexer := do
  let l ← l.rememberPlace?
  return l.take false (← readTag? l.inFlow l.input.advance)

/-- A block scalar. -/
def takeBlockScalar? (l : Lexer) (folding : Bool) : Option Lexer := do
  let l ← l.forgetPlace?
  let (text, input) ← readBlock? folding l.indents.head? l.input.advance
  return l.take true (.scalar false text, input)

/-- A scalar in quotes. -/
def takeQuoted? (l : Lexer) (double : Bool) : Option Lexer := do
  let l ← l.rememberPlace?
  let i := l.input.advance
  let read ←
    if double then readDouble i.rest i.mark .text [] .none else readSingle i.rest i.mark [] .none
  return l.take false (.scalar false read.text, read.input)

/-- A plain scalar. -/
def takePlain? (l : Lexer) : Option Lexer := do
  let l ← l.rememberPlace?
  let indent := (l.indents.head?.map (· + 1)).getD 0
  let read ← readPlain ⟨l.inFlow, indent⟩ l.input.rest l.input.mark [] .none
  return l.take read.crossedLine (.scalar true read.text, read.input)

/-- Whether the character has a meaning of its own at the start of a token. -/
def isIndicator (c : Char) : Bool :=
  ['-', '?', ':', ',', '[', ']', '\x7b', '\x7d', '#', '&', '*', '!', '|', '>', '\x27', '"', '%', '@',
    '\x60'].contains c

/-- Whether a plain scalar can start with a character. -/
def startsPlain (flow : Bool) (c : Char) (next : Option Char) : Bool :=
  (!isGap c && !isIndicator c)
    || (c = '-' && !(next.map isBlank).getD false)
    || (!flow && (c = '?' || c = ':') && !isGapOrEnd next)

/-- Take in the token that starts here. -/
def takeToken? (l : Lexer) : Option Lexer :=
  match l.input.rest with
  | [] => l.takeEnd?
  | c :: rest =>
    let next := rest.head?
    -- Directives and document marks count at the left margin only.
    if l.column = 0 && c = '%' then l.takeDirective?
    else if l.column = 0 && isDocumentMark (c :: rest) then
      l.takeDocumentMark? (if c = '-' then .documentStart else .documentEnd)
    else
      match c with
      | '[' => l.takeOpening? .flowSequenceStart
      | '\x7b' => l.takeOpening? .flowMappingStart
      | ']' => l.takeClosing? .flowSequenceEnd
      | '\x7d' => l.takeClosing? .flowMappingEnd
      | ',' => l.takeComma?
      | '*' => l.takeAnchor? .alias
      | '&' => l.takeAnchor? .anchor
      | '!' => l.takeTag?
      | '\x27' => l.takeQuoted? false
      | '"' => l.takeQuoted? true
      | c =>
        -- These three are indicators before a gap; the last two also in brackets.
        if c = '-' && isGapOrEnd next then l.takeDash?
        else if c = '?' && (l.inFlow || isGapOrEnd next) then l.takeKeyMark?
        else if c = ':' && (l.inFlow || isGapOrEnd next) then l.takeColon?
        else if (c = '|' || c = '>') && !l.inFlow then l.takeBlockScalar? (c = '>')
        else if startsPlain l.inFlow c next then l.takePlain?
        else none

/-- The number of characters that must be seen to tell what a token is: as
    many as a document mark has with the gap after it. -/
def lookahead : Nat := 4

/-- Move to the next token and take it in.  No required key may be left
    behind on the way.  A token ends where the character after it is seen. -/
def step? (l : Lexer) : Option Lexer := do
  let l ← l.toNextToken.forgetStale?
  if !l.sees lookahead then none
  let l ← (l.closeBlocksWhere (l.column < ·)).takeToken?
  if !l.sees 1 then none
  l.forgetStale?

/-- Take in tokens until the text ends or is broken.  Every token has at
    least one character, so that as many steps as characters, and one for the
    end, suffice. -/
def run : (fuel : Nat) → Lexer → List Token
  | 0, l => l.settled
  | fuel + 1, l =>
    match l.step? with
    | none => l.settled
    | some next =>
      if next.tokens.head? = some .streamEnd then next.tokens.reverse else run fuel next

end Lexer

/-- The tokens of a text, in order.  The last one is `streamEnd`, unless the
    text is broken. -/
def tokenize (text : String) : List Token :=
  let (input, whole) := Input.ofText text
  Lexer.run (input.rest.length + 1) { input, whole }

end JavaTree.Yaml
