import JavaTree.Json.Token
import JavaTree.Value

/-! # JSON values

    `Json.parse` reads a text into a value.  It never fails: where the text
    stops being JSON, the value ends in a `cut`, and what was read before the
    cut stays in place.  Whoever interprets the value in order therefore
    reports the first problem of the text.

    Reading is a fold over the tokens with an explicit stack of open arrays
    and objects, so nesting is limited by memory only. -/

namespace JavaTree

/-! ## Section 1: Values -/

/-- A JSON value, possibly broken off. -/
inductive Json where
  | null
  | bool (b : Bool)
  | number (n : Json.Number)
  /-- A string, without text if it holds an unpaired surrogate. -/
  | string (s : Option String)
  | array (items : List Json)
  /-- Members in order of appearance, repeated keys included. -/
  | object (members : List (Option String × Json))
  /-- The text breaks off here. -/
  | cut

namespace Json

/-! ## Section 2: Reading tokens -/

/-- What surrounds a value that is being read. -/
inductive Context where
  /-- An array, with the items before the value in reverse. -/
  | array (before : List Json)
  /-- An object, with the members before the value in reverse, and its key. -/
  | object (before : List (Option String × Json)) (key : Option String)

/-- Put a value into its context. -/
def Context.close (v : Json) : Context → Json
  | .array before => .array (v :: before).reverse
  | .object before key => .object ((key, v) :: before).reverse

/-- Put a value into all its contexts, innermost first. -/
def closeAll (v : Json) (contexts : List Context) : Json := contexts.foldl Context.close v

/-- What the reader expects next. -/
inductive Reader where
  /-- A value. -/
  | value (around : List Context)
  /-- The first item of an array, or its end. -/
  | item (around : List Context)
  /-- A key; the end of the object as well, if it is still empty. -/
  | key (before : List (Option String × Json)) (around : List Context)
  /-- The colon after a key. -/
  | colon (before : List (Option String × Json)) (key : Option String) (around : List Context)
  /-- What follows a complete value. -/
  | after (v : Json) (around : List Context)
  /-- Nothing: the text is broken, and this is what it held. -/
  | broken (v : Json)
  /-- Nothing: a complete value is followed by more. -/
  | trailing (v : Json)

namespace Reader

/-- The value a token stands for by itself. -/
def scalar? : Token → Option Json
  | .null => some .null
  | .bool b => some (.bool b)
  | .number n => some (.number n)
  | .string s => some (.string s)
  | _ => none

/-- Begin a value with a token. -/
def begin (around : List Context) : Token → Reader
  | .openBrace => .key [] around
  | .openBracket => .item around
  | t =>
    match scalar? t with
    | some v => .after v around
    | none => .broken (closeAll .cut around)

/-- What the text held if it breaks off now. -/
def result : Reader → Json
  | .value around => closeAll .cut around
  | .item around => closeAll (.array [.cut]) around
  | .key before around => closeAll (.object ((none, .cut) :: before).reverse) around
  | .colon before k around => closeAll (.object ((k, .cut) :: before).reverse) around
  | .after v [] => v
  | .after v (.array before :: around) => closeAll (.array (.cut :: v :: before).reverse) around
  | .after v (.object before k :: around) =>
      closeAll (.object ((none, .cut) :: (k, v) :: before).reverse) around
  | .broken v => v
  | .trailing v => v

/-- Take in one token. -/
def step (r : Reader) (t : Token) : Reader :=
  match r, t with
  | .value around, t => begin around t
  | .item around, .closeBracket => .after (.array []) around
  | .item around, t => begin (.array [] :: around) t
  | .key [] around, .closeBrace => .after (.object []) around
  | .key before around, .string s => .colon before s around
  | .colon before k around, .colon => .value (.object before k :: around)
  | .after v (.array before :: around), .comma => .value (.array (v :: before) :: around)
  | .after v (.array before :: around), .closeBracket =>
      .after (.array (v :: before).reverse) around
  | .after v (.object before k :: around), .comma => .key ((k, v) :: before) around
  | .after v (.object before k :: around), .closeBrace =>
      .after (.object ((k, v) :: before).reverse) around
  | .after v [], _ => .trailing v
  | .trailing v, _ => .trailing v
  | .broken v, _ => .broken v
  | r, _ => .broken r.result

end Reader

/-- The outcome of reading a text. -/
structure Parsed where
  /-- The value, up to where the text breaks off. -/
  root : Json
  /-- Whether more than white space follows the value. -/
  trailing : Bool

/-- Read a value from tokens. -/
def ofTokens (tokens : List Token) : Parsed :=
  match tokens.foldl Reader.step (.value []) with
  | .trailing v => ⟨v, true⟩
  | r => ⟨r.result, false⟩

/-- Read a value from a text. -/
def parse (text : String) : Parsed := ofTokens (Token.scan text)

/-! ## Section 3: Completeness and content -/

mutual

/-- Whether the value is not broken off anywhere. -/
def isWhole : Json → Bool
  | .cut => false
  | .array items => allWhole items
  | .object members => membersWhole members
  | _ => true

/-- Whether no item is broken off. -/
def allWhole : List Json → Bool
  | [] => true
  | v :: rest => v.isWhole && allWhole rest

/-- Whether no member is broken off. -/
def membersWhole : List (Option String × Json) → Bool
  | [] => true
  | (_, v) :: rest => v.isWhole && membersWhole rest

end

mutual

/-- The plain value.  There is none if the text is broken off inside, a
    string has no text, or a number is too large. -/
def toValue? : Json → Option Value
  | .null => some .null
  | .bool b => some (.flag b)
  | .number (.integer i) => some (.int i)
  | .number n => if n.isFinite then some .real else none
  | .string s => s.map .text
  | .array items => (toValues? items).map .list
  | .object members => (toEntries? members).map .map
  | .cut => none

/-- The plain values of all items. -/
def toValues? : List Json → Option (List Value)
  | [] => some []
  | v :: rest => do
    let v ← v.toValue?
    let rest ← toValues? rest
    return v :: rest

/-- The plain entries of all members. -/
def toEntries? : List (Option String × Json) → Option (List (Value × Value))
  | [] => some []
  | (key, v) :: rest => do
    let key ← key
    let v ← v.toValue?
    let rest ← toEntries? rest
    return (.text key, v) :: rest

end

end Json

end JavaTree
