import JavaTree.Attribute

/-! # Plain values

    What a document may hold at an attribute before it is known to be an
    attribute value.  Both text formats read into this type, and
    `AttrValue.ofValue?` decides whether the value is a flag, an integer, a
    source range or a text, tried in that order. -/

namespace JavaTree

/-- A value read from a document. -/
inductive Value where
  | null
  | flag (b : Bool)
  | int (i : Int)
  /-- Zero with a minus sign: an integer, but none that counts fields. -/
  | minusZero
  /-- A number that is not an integer of at most 64 bits. -/
  | real
  | text (s : String)
  | list (items : List Value)
  | map (entries : List (Value × Value))

namespace Value

/-- Which of two fields a key stands for: a text names it, a natural number
    counts it.  `none` is a key that cannot name a field at all. -/
def fieldIndex? (first second : String) : Value → Option Nat
  | .text s => if s = first then some 0 else if s = second then some 1 else some 2
  | .int (.ofNat n) => some n
  | _ => none

/-- Collect the values of two fields.  Unknown fields are passed over, and a
    field given twice fails. -/
def collectPair? (first second : String) :
    List (Value × Value) → Option Value → Option Value → Option (Value × Value)
  | [], some a, some b => some (a, b)
  | [], _, _ => none
  | (key, v) :: rest, a, b =>
    match fieldIndex? first second key, a, b with
    | none, _, _ => none
    | some 0, none, b => collectPair? first second rest (some v) b
    | some 1, a, none => collectPair? first second rest a (some v)
    | some 0, some _, _ => none
    | some 1, _, some _ => none
    | some _, a, b => collectPair? first second rest a b

/-- Read a record of two fields, given by name or as a list of exactly two. -/
def pair? (first second : String) : Value → Option (Value × Value)
  | .list [a, b] => some (a, b)
  | .map entries => collectPair? first second entries none none
  | _ => none

/-- Read a 32-bit natural number. -/
def word? : Value → Option UInt32
  | .int (.ofNat n) => if n < UInt32.size then some (UInt32.ofNat n) else none
  | .minusZero => some 0
  | _ => none

end Value

/-- Read a position. -/
def Position.ofValue? (v : Value) : Option Position := do
  let (line, column) ← v.pair? "line" "column"
  return ⟨← line.word?, ← column.word?⟩

/-- Read a source range. -/
def Span.ofValue? (v : Value) : Option Span := do
  let (start, stop) ← v.pair? "begin" "end"
  return ⟨← Position.ofValue? start, ← Position.ofValue? stop⟩

/-- Whether the integer fits in 64 bits with sign. -/
def fitsInt64 (i : Int) : Bool := Int64.minValue.toInt ≤ i && i ≤ Int64.maxValue.toInt

/-- Read an attribute value.  Numbers out of range, fractions, nulls and
    other lists and maps are none. -/
def AttrValue.ofValue? : Value → Option AttrValue
  | .flag b => some (.flag b)
  | .int i => if fitsInt64 i then some (.int (Int64.ofInt i)) else none
  | .minusZero => some (.int 0)
  | .text s => some (.text s)
  | .null => none
  | .real => none
  | v => (Span.ofValue? v).map .span

end JavaTree
