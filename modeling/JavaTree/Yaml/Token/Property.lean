import JavaTree.Yaml.Input
import JavaTree.Yaml.Token
import JavaTree.Text.Decimal

/-! # Anchors, tags and directives

    The readers start after the character that announces the token. -/

namespace JavaTree.Yaml

/-! ## Section 1: Anchors -/

/-- The name of an anchor or an alias. -/
def readAnchor? (i : Input) : Option (String × Input) :=
  let (name, i) := i.span isWordChar
  let ends := i.atGap
    || ((i.rest.head?.map ['?', ':', ',', ']', '\x7d', '%', '@', '\x60'].contains).getD false)
  if !name.isEmpty && ends then some (String.ofList name, i) else none

/-! ## Section 2: Tags -/

/-- Whether the character can stand in the name part of a tag. -/
def isTagChar (c : Char) : Bool :=
  isWordChar c || [';', '/', '?', ':', '@', '&', '=', '+', '$', '.', '%', '!', '~', '*', '\x27',
    '(', ')'].contains c

/-- Whether the character can stand in a tag that is given in full. -/
def isTagAddressChar (c : Char) : Bool := isTagChar c || [',', '[', ']'].contains c

/-- The byte that an escape of two digits stands for. -/
def escapedByte? : List Char → Option (Nat × List Char)
  | '%' :: a :: b :: rest =>
    if Decimal.isDigitIn 16 a && Decimal.isDigitIn 16 b then
      some (Decimal.valueIn 16 [a, b], rest)
    else none
  | _ => none

/-- How many bytes follow the first byte of a character. -/
def bytesAfter? (first : Nat) : Option Nat :=
  if first < 0x80 then some 0
  else if 0xC0 ≤ first && first < 0xE0 then some 1
  else if 0xE0 ≤ first && first < 0xF0 then some 2
  else if 0xF0 ≤ first && first < 0xF8 then some 3
  else none

/-- Read the bytes of a run of tag characters, given how many must still
    continue the current character.  `fuel` bounds the number of characters.
    The bytes need not make up a character that exists. -/
def tagBytes? : (fuel due : Nat) → List Char → Option (List UInt8)
  | _, 0, [] => some []
  | fuel + 1, 0, c :: rest =>
    if c = '%' then do
      let (byte, rest) ← escapedByte? (c :: rest)
      let tail ← tagBytes? fuel (← bytesAfter? byte) rest
      return byte.toUInt8 :: tail
    else do
      let tail ← tagBytes? fuel 0 rest
      return c.toNat.toUInt8 :: tail
  | fuel + 1, due + 1, cs => do
    let (byte, rest) ← escapedByte? cs
    if byte < 0x80 || 0xC0 ≤ byte then none
    let tail ← tagBytes? fuel due rest
    return byte.toUInt8 :: tail
  | _, _, _ => none

/-- Read a run of tag characters as the bytes they stand for. -/
def readTagBytes? (p : Char → Bool) (i : Input) : Option (List UInt8 × Input) := do
  let (run, i) := i.span p
  return (← tagBytes? run.length 0 run, i)

/-- Read a tag given in full, after its opening bracket. -/
def readFullTag? (i : Input) : Option (Token × Input) := do
  let (bytes, i) ← readTagBytes? isTagAddressChar i
  let i ← i.skip? '>'
  if bytes.isEmpty then none else return (.tag "" (.ofBytes bytes), i)

/-- Read a tag given by a handle, after the exclamation mark.  With nothing
    to follow it, the mark is the whole tag. -/
def readShortTag? (i : Input) : Option (Token × Input) := do
  let (word, afterWord) := i.span isWordChar
  match afterWord.skip? '!' with
  | some afterHandle =>
    let (bytes, i) ← readTagBytes? isTagChar afterHandle
    if bytes.isEmpty then none
    else return (.tag ("!" ++ String.ofList word ++ "!") (.ofBytes bytes), i)
  | none =>
    let (bytes, i) ← readTagBytes? isTagChar afterWord
    let suffix := Tag.ofBytes (Tag.asciiBytes word ++ bytes)
    return (if suffix.isEmpty then .tag "" .lone else .tag "!" suffix, i)

/-- Read a tag after its exclamation mark. -/
def readTag? (flow : Bool) (i : Input) : Option (Token × Input) := do
  let (token, i) ←
    match i.skip? '<' with
    | some i => readFullTag? i
    | none => readShortTag? i
  if i.atGap || (flow && i.rest.head? = some ',') then return (token, i) else none

/-! ## Section 3: Directives -/

/-- Read a version number of at most nine digits. -/
def readVersionNumber? (i : Input) : Option (Nat × Input) :=
  let (digits, i) := i.span Decimal.isDigit
  if digits.isEmpty || 9 < digits.length then none else some (Decimal.value digits, i)

/-- Read the version that a document asks for. -/
def readVersion? (i : Input) : Option (Token × Input) := do
  let (major, i) ← readVersionNumber? (i.dropWhile isBlank)
  let i ← i.skip? '.'
  let (minor, i) ← readVersionNumber? i
  return (.version major minor, i)

/-- Read the handle that a document declares: an exclamation mark, or a word
    between two. -/
def readHandle? (i : Input) : Option (String × Input) := do
  let i ← i.skip? '!'
  let (word, i) := i.span isWordChar
  match i.skip? '!' with
  | some i => return ("!" ++ String.ofList word ++ "!", i)
  | none => if word.isEmpty then return ("!", i) else none

/-- Read what a handle stands for. -/
def readHandleDirective? (i : Input) : Option (Token × Input) := do
  let (name, i) ← readHandle? (i.dropWhile isBlank)
  if !(i.rest.head?.map isBlank).getD false then none
  let (bytes, i) ← readTagBytes? isTagAddressChar (i.dropWhile isBlank)
  if bytes.isEmpty || !i.atGap then none
  return (.handle name (.ofBytes bytes), i)

/-- Read a directive after its percent sign, to the end of its line. -/
def readDirective? (i : Input) : Option (Token × Input) := do
  let (name, i) := i.span isWordChar
  if !i.atGap then none
  let (token, i) ←
    match String.ofList name with
    | "YAML" => readVersion? i
    | "TAG" => readHandleDirective? i
    | _ => none
  let i ← i.nextLine?
  return (token, i)

end JavaTree.Yaml
