import JavaTree.Text.Decimal
import JavaTree.Text.Pieces
import JavaTree.Toml.Value

/-! # Numbers, dates and strings of TOML

    A number, a truth value or a date is a word: a run of letters, digits and
    a few signs.  `Word.value?` tells what it stands for. -/

namespace JavaTree.Toml

/-! ## Section 1: Numbers -/

namespace Word

/-- Whether the character can stand in a number, a truth value or a date. -/
def isChar (c : Char) : Bool :=
  c.isAlphanum || c = '+' || c = '-' || c = '_' || c = '.' || c = ':'

/-- Digits in groups: underscores stand between digits only. -/
def grouped? (isDigit : Char → Bool) (cs : List Char) : Option (List Char) :=
  let groups := Text.pieces '_' cs
  if groups.all fun g => !g.isEmpty && g.all isDigit then some groups.flatten else none

/-- Digits of a decimal number, without a superfluous leading zero. -/
def decimal? (cs : List Char) : Option (List Char) :=
  match cs with
  | '0' :: _ :: _ => none
  | cs => grouped? Decimal.isDigit cs

/-- The sign, and what follows it. -/
def splitSign : List Char → Bool × List Char
  | '-' :: rest => (true, rest)
  | '+' :: rest => (false, rest)
  | cs => (false, cs)

/-- The value of digits after a base mark. -/
def based? : List Char → Option Nat
  | '0' :: 'x' :: rest => (grouped? (Decimal.isDigitIn 16) rest).map (Decimal.valueIn 16)
  | '0' :: 'o' :: rest => (grouped? (Decimal.isDigitIn 8) rest).map (Decimal.valueIn 8)
  | '0' :: 'b' :: rest => (grouped? (Decimal.isDigitIn 2) rest).map (Decimal.valueIn 2)
  | _ => none

/-- A whole number in decimal digits, with or without sign. -/
def signed? (cs : List Char) : Option Int := do
  let (negative, digits) := splitSign cs
  let n := Decimal.value (← decimal? digits)
  return if negative then -(n : Int) else n

/-- An integer of at most 64 bits, with sign. -/
def integer? (cs : List Char) : Option Int :=
  ((based? cs).map Int.ofNat).or (signed? cs) |>.filter fun i =>
    -(Nat.pow 2 63 : Int) ≤ i && i < Nat.pow 2 63

/-- The exponent of a number, given what follows its mantissa. -/
def exponent? : List Char → Option Int
  | [] => some 0
  | c :: rest =>
    if c = 'e' || c = 'E' then do
      let (negative, digits) := splitSign rest
      let n := Decimal.value (← grouped? Decimal.isDigit digits)
      return if negative then -(n : Int) else n
    else none

/-- Whether a number without sign, which has a fraction or an exponent, is
    within the range of a double. -/
def isFinite? (cs : List Char) : Option Bool := do
  let isPart (c : Char) : Bool := Decimal.isDigit c || c = '_'
  let whole ← decimal? (cs.takeWhile isPart)
  match cs.dropWhile isPart with
  | '.' :: rest =>
    let fraction ← grouped? Decimal.isDigit (rest.takeWhile isPart)
    let e ← exponent? (rest.dropWhile isPart)
    return !Decimal.exceedsDouble (Decimal.value (whole ++ fraction)) (e - fraction.length)
  | [] => none
  | rest =>
    let e ← exponent? rest
    return !Decimal.exceedsDouble (Decimal.value whole) e

/-- Whether the word is a number that is no integer.  Only a number that is
    too large, not one that is too small, is refused. -/
def isFloat (cs : List Char) : Bool :=
  let (negative, cs) := splitSign cs
  if cs = ['i', 'n', 'f'] || cs = ['n', 'a', 'n'] then true
  else
    match isFinite? cs with
    | some finite => finite || negative
    | none => false

/-! ## Section 2: Dates and times -/

/-- The value of a given number of digits, if it lies between two bounds. -/
def number? (width least greatest : Nat) (cs : List Char) : Option (Nat × List Char) :=
  let digits := cs.take width
  let n := Decimal.value digits
  if digits.length = width && digits.all Decimal.isDigit && least ≤ n && n ≤ greatest then
    some (n, cs.drop width)
  else none

/-- What follows a character. -/
def after? (c : Char) : List Char → Option (List Char)
  | d :: rest => if c = d then some rest else none
  | [] => none

/-- The number of days in a month. -/
def daysIn (year month : Nat) : Nat :=
  if month = 2 then
    if year % 4 = 0 && (year % 100 ≠ 0 || year % 400 = 0) then 29 else 28
  else if month = 4 || month = 6 || month = 9 || month = 11 then 30
  else 31

/-- What follows a date. -/
def afterDate? (cs : List Char) : Option (List Char) := do
  let (year, cs) ← number? 4 0 9999 cs
  let (month, cs) ← number? 2 1 12 (← after? '-' cs)
  let (_, cs) ← number? 2 1 (daysIn year month) (← after? '-' cs)
  return cs

/-- What follows a time. -/
def afterTime? (cs : List Char) : Option (List Char) := do
  let (_, cs) ← number? 2 0 23 cs
  let (_, cs) ← number? 2 0 59 (← after? ':' cs)
  let (_, cs) ← number? 2 0 60 (← after? ':' cs)
  match cs with
  | '.' :: rest =>
    if (rest.head?.map Decimal.isDigit).getD false then return rest.dropWhile Decimal.isDigit
    else none
  | cs => return cs

/-- Whether the characters are an offset from universal time, or none. -/
def isOffset : List Char → Bool
  | [] => true
  | [c] => c = 'Z' || c = 'z'
  | c :: rest =>
    (c = '+' || c = '-') && ((do
      let (_, rest) ← number? 2 0 23 rest
      let (_, rest) ← number? 2 0 59 (← after? ':' rest)
      return rest.isEmpty).getD false)

/-- Whether the characters are a time with or without offset. -/
def isOffsetTime (cs : List Char) : Bool := ((afterTime? cs).map isOffset).getD false

/-- Whether the word is a date without time. -/
def isDate (cs : List Char) : Bool := afterDate? cs = some []

/-- Whether the word is a date, a time or both. -/
def isDatetime (cs : List Char) : Bool :=
  afterTime? cs = some [] ||
    match afterDate? cs with
    | some [] => true
    | some (c :: rest) => (c = 'T' || c = 't') && isOffsetTime rest
    | none => false

/-- What a word stands for. -/
def value? (cs : List Char) : Option Value :=
  if cs = ['t', 'r', 'u', 'e'] then some (.boolean true)
  else if cs = ['f', 'a', 'l', 's', 'e'] then some (.boolean false)
  else
    match integer? cs with
    | some i => some (.integer i)
    | none =>
      if isFloat cs then some .float else if isDatetime cs then some .datetime else none

end Word

/-! ## Section 3: Strings -/

/-- Whether the character may stand in a text: no control character but the
    tab. -/
def isTextChar (c : Char) : Bool := c = '\t' || (0x20 ≤ c.toNat && c.toNat ≠ 0x7F)

/-- Read a string in single quotes, after the first. -/
def readLiteral : List Char → (text : List Char) → Option (String × List Char)
  | [], _ => none
  | c :: rest, text =>
    if c = '\x27' then some (String.ofList text.reverse, rest)
    else if isTextChar c then readLiteral rest (c :: text)
    else none

/-- The text of a string over several lines that three quotes close.  Up to
    two quotes before them belong to the text. -/
def closeLines (quote : Char) (text rest : List Char) : String × List Char :=
  let extra := (rest.take 2).takeWhile (· = quote)
  (String.ofList (extra ++ text).reverse, rest.drop extra.length)

/-- Read a string in three single quotes, after them. -/
def readLiteralLines : List Char → (text : List Char) → Option (String × List Char)
  | [], _ => none
  | '\x27' :: '\x27' :: '\x27' :: rest, text => some (closeLines '\x27' text rest)
  | c :: rest, text =>
    if isTextChar c || c = '\n' then readLiteralLines rest (c :: text) else none

/-- Where a reader of an escaped string is. -/
inductive EscapeState where
  /-- Between characters. -/
  | text
  /-- After a backslash. -/
  | escape
  /-- Inside a numeric escape: the digits still to come, and the value. -/
  | code (missing value : Nat)
  /-- After a backslash and blanks, before the end of the line. -/
  | lineEnd
  /-- In the white space that a backslash at the end of a line hides. -/
  | hidden

/-- The character an escape of one letter stands for. -/
def unescape? : Char → Option Char
  | 'b' => some '\x08'
  | 't' => some '\t'
  | 'n' => some '\n'
  | 'f' => some '\x0c'
  | 'r' => some '\r'
  | '"' => some '"'
  | '\\' => some '\\'
  | _ => none

/-- How to go on after one character of an escape: the state, and what the
    text gains. -/
def EscapeState.step? (lines : Bool) (s : EscapeState) (c : Char) :
    Option (EscapeState × List Char) :=
  match s with
  | .escape =>
    match unescape? c with
    | some d => some (.text, [d])
    | none =>
      if c = 'u' then some (.code 4 0, [])
      else if c = 'U' then some (.code 8 0, [])
      else if lines && c = '\n' then some (.hidden, [])
      else if lines && (c = ' ' || c = '\t') then some (.lineEnd, [])
      else none
  | .code missing value =>
    if !Decimal.isDigitIn 16 c then none
    else
      let value := value * 16 + Decimal.digitValue c
      if 1 < missing then some (.code (missing - 1) value, [])
      else if value.isValidChar then some (.text, [Char.ofNat value])
      else none
  | .lineEnd =>
    if c = '\n' then some (.hidden, [])
    else if c = ' ' || c = '\t' then some (.lineEnd, [])
    else none
  | s =>
    let isHidden := (match s with | .hidden => true | _ => false) && (c = ' ' || c = '\t' || c = '\n')
    if isHidden then some (.hidden, [])
    else if c = '\\' then some (.escape, [])
    else if isTextChar c || (lines && c = '\n') then some (.text, [c])
    else none

/-- Whether a quote would close a string. -/
def EscapeState.isOpen : EscapeState → Bool
  | .text => true
  | .hidden => true
  | _ => false

/-- Read a string in double quotes, after the first. -/
def readBasic : List Char → EscapeState → (text : List Char) → Option (String × List Char)
  | [], _, _ => none
  | c :: rest, s, text =>
    if c = '"' && s.isOpen then some (String.ofList text.reverse, rest)
    else
      match s.step? false c with
      | some (s, more) => readBasic rest s (more ++ text)
      | none => none

/-- Read a string in three double quotes, after them. -/
def readBasicLines : List Char → EscapeState → (text : List Char) → Option (String × List Char)
  | [], _, _ => none
  | c :: rest, s, text =>
    if s.isOpen && (c :: rest).take 3 = ['"', '"', '"'] then
      some (closeLines '"' text (rest.drop 2))
    else
      match s.step? true c with
      | some (s, more) => readBasicLines rest s (more ++ text)
      | none => none

/-- Read a string that starts with a quote. -/
def readString : List Char → Option (String × List Char)
  | '"' :: '"' :: '"' :: '\n' :: rest => readBasicLines rest .text []
  | '"' :: '"' :: '"' :: rest => readBasicLines rest .text []
  | '\x27' :: '\x27' :: '\x27' :: '\n' :: rest => readLiteralLines rest []
  | '\x27' :: '\x27' :: '\x27' :: rest => readLiteralLines rest []
  | '"' :: rest => readBasic rest .text []
  | '\x27' :: rest => readLiteral rest []
  | _ => none

end JavaTree.Toml
