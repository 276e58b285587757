import JavaTree.Yaml.Input
import JavaTree.Yaml.Scalar

/-! # How a text is written as a YAML scalar

    A text is written plain if it reads back as the same text, and otherwise
    in the first of these styles that can hold it: single quotes, double
    quotes.  A text with a line feed is written as a literal block, where it
    stands, if it can be, and else in double quotes. -/

namespace JavaTree.Yaml

/-! ## Section 1: What a text holds -/

/-- The features of a text that rule out some styles. -/
structure Features where
  /-- Something in it would be taken for structure. -/
  indicators : Bool
  /-- It holds a line break. -/
  multiline : Bool
  /-- It holds a character that has to be escaped. -/
  special : Bool
  /-- It starts or ends with a space or a line break. -/
  edges : Bool
  /-- It ends with a space. -/
  trailingSpace : Bool
  /-- A space follows a line break. -/
  breakSpace : Bool
  /-- A line break follows a space. -/
  spaceBreak : Bool

/-- Whether a character at the start of a text, with what follows it, would
    be taken for structure. -/
def startsStructure (c : Char) (next : Option Char) : Bool :=
  ['#', ',', '[', ']', '\x7b', '\x7d', '&', '*', '!', '|', '>', '\x27', '"', '%', '@', '\x60'].contains c
    || ((c = '?' || c = ':' || c = '-') && isGapOrEnd next)

/-- Whether a character inside a text, with its neighbours, would be taken
    for structure. -/
def marksStructure (previous c : Char) (next : Option Char) : Bool :=
  (c = ':' && isGapOrEnd next) || (c = '#' && isGapOrEnd (some previous))

/-- Whether some adjacent pair of characters satisfies `p`. -/
def anyPair (p : Char → Char → Bool) : List Char → Bool
  | a :: b :: rest => p a b || anyPair p (b :: rest)
  | _ => false

/-- Whether some character after the first would be taken for structure. -/
def anyMark : List Char → Bool
  | a :: b :: rest => marksStructure a b rest.head? || anyMark (b :: rest)
  | _ => false

/-- The features of a text. -/
def Features.of (cs : List Char) : Features :=
  let isEdge (c : Option Char) : Bool := (c.map fun c => c = ' ' || isBreak c).getD false
  { indicators :=
      (match cs with
        | c :: rest => startsStructure c rest.head?
        | [] => false)
      || anyMark cs || cs.take 3 = ['-', '-', '-'] || cs.take 3 = ['.', '.', '.']
    multiline := cs.any isBreak
    special := cs.any (!isPrintable ·)
    edges := isEdge cs.head? || isEdge cs.getLast?
    trailingSpace := cs.getLast? = some ' '
    breakSpace := anyPair (fun a b => isBreak a && b = ' ') cs
    spaceBreak := anyPair (fun a b => a = ' ' && isBreak b) cs }

namespace Features

/-- Whether the text can be written without quotes. -/
def allowsPlain (f : Features) : Bool :=
  !f.indicators && !f.multiline && !f.special && !f.edges

/-- Whether the text can be written in single quotes. -/
def allowsSingle (f : Features) : Bool := !f.breakSpace && !f.spaceBreak && !f.special

/-- Whether the text can be written as a block. -/
def allowsBlock (f : Features) : Bool := !f.trailingSpace && !f.spaceBreak && !f.special

end Features

/-! ## Section 2: Choosing a style -/

/-- How a scalar is written. -/
inductive Style where
  | plain
  | single
  | double
  | literal
  deriving DecidableEq, Repr

/-- Whether a text without quotes would read back as a text. -/
def staysText (s : String) : Bool :=
  Resolution.ofPlain s = .text && !Resolution.hasLeadingZero s.toList

/-- The style of a text. -/
def Style.of (s : String) : Style :=
  let f := Features.of s.toList
  if s.toList.contains '\n' then if f.allowsBlock then .literal else .double
  else if staysText s && f.allowsPlain then .plain
  else if f.allowsSingle then .single
  else .double

/-! ## Section 3: Writing -/

/-- Spaces up to a column. -/
def spaces (n : Nat) : String := String.ofList (List.replicate n ' ')

/-- Characters with line breaks kept; the text after a break starts at a
    column. -/
def indented (column : Nat) : Bool → List Char → List Char
  | _, [] => []
  | afterBreak, c :: rest =>
    if isBreak c then c :: indented column true rest
    else if afterBreak then List.replicate column ' ' ++ c :: indented column false rest
    else c :: indented column false rest

/-- A text in single quotes.  The text after a line break starts at a column. -/
def singleQuoted (column : Nat) (s : String) : String :=
  let quoted := s.toList.flatMap fun c => if c = '\x27' then ['\x27', '\x27'] else [c]
  let closing := if (s.toList.getLast?.map isBreak).getD false then spaces column else ""
  "'" ++ String.ofList (indented column false quoted) ++ closing ++ "'"

/-- An upper-case hexadecimal numeral of a given width. -/
def hex (width n : Nat) : List Char :=
  let digits := (Nat.toDigits 16 n).map Char.toUpper
  List.replicate (width - digits.length) '0' ++ digits

/-- The escape of a character. -/
def escapeChar (c : Char) : List Char :=
  '\\' ::
    match c with
    | '\x00' => ['0']
    | '\x07' => ['a']
    | '\x08' => ['b']
    | '\t' => ['t']
    | '\n' => ['n']
    | '\x0b' => ['v']
    | '\x0c' => ['f']
    | '\r' => ['r']
    | '\x1b' => ['e']
    | '"' => ['"']
    | '\\' => ['\\']
    | '\x85' => ['N']
    | '\xa0' => ['_']
    | '\u2028' => ['L']
    | '\u2029' => ['P']
    | c =>
      if c.toNat ≤ 0xFF then 'x' :: hex 2 c.toNat
      else if c.toNat ≤ 0xFFFF then 'u' :: hex 4 c.toNat
      else 'U' :: hex 8 c.toNat

/-- A text in double quotes. -/
def doubleQuoted (s : String) : String :=
  "\"" ++ String.ofList (s.toList.flatMap fun c =>
    if !isPrintable c || isBreak c || c = '"' || c = '\\' then escapeChar c else [c]) ++ "\""

/-- The header of a literal block: an indentation hint if the text starts
    with a space or a break, and what to do with the final line breaks. -/
def blockHeader (cs : List Char) : String :=
  let hint := if (cs.head?.map fun c => c = ' ' || isBreak c).getD false then "2" else ""
  let chomp :=
    match cs.reverse with
    | [] => "-"
    | [c] => if isBreak c then "+" else "-"
    | c :: d :: _ => if !isBreak c then "-" else if isBreak d then "+" else ""
  "|" ++ hint ++ chomp

/-- A text as a literal block whose lines start at a column. -/
def literalBlock (column : Nat) (s : String) : String :=
  blockHeader s.toList ++ "\n" ++ String.ofList (indented column true s.toList)

/-- A text as a scalar whose further lines start at a column. -/
def writeText (column : Nat) (s : String) : String :=
  match Style.of s with
  | .plain => s
  | .single => singleQuoted column s
  | .double => doubleQuoted s
  | .literal => literalBlock column s

/-- A scalar with its line ended.  A block whose text ends in a line break
    has done so itself. -/
def endLine (s : String) : String :=
  if (s.toList.getLast?.map isBreak).getD false then s else s ++ "\n"

/-- Whether a text can be the key of an entry on one line. -/
def isSimpleKey (s : String) : Bool :=
  s.utf8ByteSize ≤ 128 && !(Features.of s.toList).multiline

end JavaTree.Yaml
