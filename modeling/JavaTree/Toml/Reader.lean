import JavaTree.Toml.Scalar

/-! # Reading TOML texts

    A text is a sequence of lines: keys with values, and headers that say
    into which table the following keys go.  `Toml.parse?` reads it into the
    entries of its topmost table. -/

namespace JavaTree.Toml

/-! ## Section 1: Gaps -/

/-- Add a character to a text, newest first.  A line feed takes the place of
    the carriage return right before it. -/
def addToLine (text : List Char) (c : Char) : List Char :=
  if c = '\n' && text.head? = some '\r' then c :: text.tail else c :: text

/-- Line ends of two characters as one. -/
def joinLineEnds (cs : List Char) : List Char := (cs.foldl addToLine []).reverse

/-- What follows the blanks. -/
def skipBlanks (cs : List Char) : List Char := cs.dropWhile fun c => c = ' ' || c = '\t'

/-- What follows blanks, line ends and comments. -/
def skipLines : List Char → (comment : Bool) → List Char
  | [], _ => []
  | c :: rest, comment =>
    if c = '\n' then skipLines rest false
    else if comment && isTextChar c then skipLines rest true
    else if !comment && c = '#' then skipLines rest true
    else if !comment && (c = ' ' || c = '\t') then skipLines rest false
    else c :: rest

/-- What follows the end of a line, before which a comment may stand. -/
def afterLine? (cs : List Char) : Option (List Char) :=
  let cs := skipBlanks cs
  let cs := if cs.head? = some '#' then cs.dropWhile isTextChar else cs
  match cs with
  | [] => some []
  | '\n' :: rest => some rest
  | _ => none

/-! ## Section 2: Keys -/

/-- A key, possibly dotted: the tables on the way, and the last part. -/
structure KeyPath where
  path : List String
  key : String
  deriving DecidableEq, Repr

/-- The nesting that no array, table in braces or dotted key may reach. -/
def nestingLimit : Nat := 80

/-- Whether the character can stand in a key without quotes. -/
def isKeyChar (c : Char) : Bool := c.isAlphanum || c = '_' || c = '-'

/-- Read one part of a key. -/
def readKeyPart : List Char → Option (String × List Char)
  | '"' :: rest => readBasic rest .text []
  | '\x27' :: rest => readLiteral rest []
  | cs =>
    let word := cs.takeWhile isKeyChar
    if word.isEmpty then none else some (String.ofList word, cs.dropWhile isKeyChar)

/-- Read the parts of a key, at most as many as given. -/
def readKeyParts : (most : Nat) → List Char → Option (List String × List Char)
  | 0, _ => none
  | most + 1, cs => do
    let (part, cs) ← readKeyPart (skipBlanks cs)
    match skipBlanks cs with
    | '.' :: rest =>
      let (parts, rest) ← readKeyParts most rest
      return (part :: parts, rest)
    | rest => return ([part], rest)

/-- Read a key. -/
def readKey (cs : List Char) : Option (KeyPath × List Char) := do
  let (parts, rest) ← readKeyParts (nestingLimit - 1) cs
  let key ← parts.getLast?
  return (⟨parts.dropLast, key⟩, rest)

/-! ## Section 3: Values -/

/-- Read a number, a truth value or a date.  A time may follow a date after
    one space. -/
def readWord (cs : List Char) : Option (Value × List Char) :=
  let word := cs.takeWhile Word.isChar
  let rest := cs.dropWhile Word.isChar
  match rest with
  | ' ' :: c :: tail =>
    -- A digit after a date and a space must begin a time.
    if Word.isDate word && Decimal.isDigit c then
      if Word.isOffsetTime ((c :: tail).takeWhile Word.isChar) then
        some (.datetime, (c :: tail).dropWhile Word.isChar)
      else none
    else (Word.value? word).map (·, rest)
  | rest => (Word.value? word).map (·, rest)

/-- Read the items of an array by `item`, up to its closing bracket. -/
def readItems (item : List Char → Option (Value × List Char)) :
    (fuel : Nat) → List Char → Option (List Value × List Char)
  | 0, _ => none
  | fuel + 1, cs =>
    match skipLines cs false with
    | ']' :: rest => some ([], rest)
    | cs => do
      let (v, cs) ← item cs
      match skipLines cs false with
      | ',' :: rest =>
        let (vs, rest) ← readItems item fuel rest
        return (v :: vs, rest)
      | ']' :: rest => return ([v], rest)
      | _ => none

/-- Read a key and its value by `item`. -/
def readEntry (item : List Char → Option (Value × List Char)) (cs : List Char) :
    Option ((KeyPath × Value) × List Char) := do
  let (key, cs) ← readKey cs
  match cs with
  | '=' :: rest =>
    let (v, rest) ← item (skipBlanks rest)
    return ((key, v), rest)
  | _ => none

/-- Read the entries of a table in braces by `item`, after the first brace
    or a comma. -/
def readBraces (item : List Char → Option (Value × List Char)) :
    (fuel : Nat) → Entries → List Char → Option (Entries × List Char)
  | 0, _, _ => none
  | fuel + 1, es, cs => do
    let ((key, v), cs) ← readEntry item cs
    let es ← es.addDotted? key.path key.key v
    match skipBlanks cs with
    | ',' :: rest => readBraces item fuel es rest
    | '\x7d' :: rest => return (es, rest)
    | _ => none

/-- Read a value, given how deep collections may still nest. -/
def readValue : (depth : Nat) → List Char → Option (Value × List Char)
  | depth, '[' :: rest =>
    match depth with
    | 0 => none
    | depth + 1 => do
      let (items, rest) ← readItems (readValue depth) (rest.length + 1) rest
      return (.array items, rest)
  | depth, '\x7b' :: rest =>
    match depth with
    | 0 => none
    | depth + 1 =>
      match skipBlanks rest with
      | '\x7d' :: rest => some (.table .braces [], rest)
      | rest => do
        let (es, rest) ← readBraces (readValue depth) (rest.length + 1) [] rest
        return (.table .braces es, rest)
  | _, c :: rest =>
    if c = '"' || c = '\x27' then do
      let (s, rest) ← readString (c :: rest)
      return (.string s, rest)
    else readWord (c :: rest)
  | _, [] => none

/-! ## Section 4: Whole texts -/

/-- A header with the keys that follow it.  The keys at the start of a text
    have no header. -/
structure Section where
  /-- The table, and whether it is one of several. -/
  header : Option (KeyPath × Bool)
  /-- The keys and their values, the last first. -/
  keys : List (KeyPath × Value) := []

/-- Read a header, after its first bracket. -/
def readHeader (cs : List Char) : Option ((KeyPath × Bool) × List Char) := do
  match cs with
  | '[' :: rest =>
    let (key, rest) ← readKey rest
    match rest with
    | ']' :: ']' :: rest => return ((key, true), ← afterLine? rest)
    | _ => none
  | cs =>
    let (key, rest) ← readKey cs
    match rest with
    | ']' :: rest => return ((key, false), ← afterLine? rest)
    | _ => none

/-- Read the sections of a text, the last first. -/
def readSections : (fuel : Nat) → Section → List Section → List Char → Option (List Section)
  | 0, _, _, _ => none
  | fuel + 1, current, earlier, cs =>
    match skipBlanks cs with
    | [] => some (current :: earlier)
    | '\n' :: rest => readSections fuel current earlier rest
    | '[' :: rest => do
      let (header, rest) ← readHeader rest
      readSections fuel { header } (current :: earlier) rest
    | c :: rest =>
      if c = '#' then do
        let rest ← afterLine? (c :: rest)
        readSections fuel current earlier rest
      else do
        let (entry, rest) ← readEntry (readValue (nestingLimit - 1)) (c :: rest)
        let rest ← afterLine? rest
        readSections fuel { current with keys := entry :: current.keys } earlier rest

/-- Add the keys of a section to a table. -/
def Section.fill? (s : Section) (es : Entries) : Option Entries :=
  s.keys.reverse.foldlM (fun es (key, v) => es.addDotted? key.path key.key v) es

/-- Add a section to the topmost table. -/
def Section.addTo? (s : Section) (es : Entries) : Option Entries :=
  match s.header with
  | none => s.fill? es
  | some (h, false) => es.addTable? h.path h.key s.fill?
  | some (h, true) => es.addRepeated? h.path h.key s.fill?

/-- Read a text.  A byte order mark at its start is passed over. -/
def parse? (text : String) : Option Entries := do
  let cs := joinLineEnds text.toList
  let cs := if cs.head? = some '\uFEFF' then cs.drop 1 else cs
  let sections ← readSections (cs.length + 1) { header := none } [] cs
  sections.reverse.foldlM (fun es s => s.addTo? es) []

end JavaTree.Toml
