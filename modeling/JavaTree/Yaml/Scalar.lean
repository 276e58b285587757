import JavaTree.Text.Decimal

/-! # What a plain scalar means

    A scalar without quotes may stand for null, a truth value, an integer or
    another number; everything else is text.  `Resolution.ofPlain` decides,
    in that order. -/

namespace JavaTree.Yaml

/-- What a plain scalar stands for. -/
inductive Resolution where
  | null
  | flag (b : Bool)
  /-- An integer of at most 64 bits, signed or unsigned. -/
  | int (i : Int)
  /-- Zero with a minus sign. -/
  | minusZero
  /-- An integer of more than 64 and at most 128 bits. -/
  | wide
  /-- Another number, infinity or not-a-number. -/
  | real
  | text
  deriving DecidableEq, Repr

namespace Resolution

/-- Drop a plus sign. -/
def withoutPlus : List Char → List Char
  | '+' :: rest => rest
  | cs => cs

/-- Drop a sign. -/
def withoutSign : List Char → List Char
  | '+' :: rest => rest
  | '-' :: rest => rest
  | cs => cs

/-- Whether the scalar is a number with a superfluous leading zero, which is
    taken for text. -/
def hasLeadingZero (cs : List Char) : Bool :=
  match withoutSign cs with
  | '0' :: rest => !rest.isEmpty && rest.all Decimal.isDigit
  | _ => false

/-- The value of digits in a base, if there are any and nothing else. -/
def natural? (base : Nat) (cs : List Char) : Option Nat :=
  if !cs.isEmpty && cs.all (Decimal.isDigitIn base) then some (Decimal.valueIn base cs) else none

/-- The value of digits after a base mark. -/
def based? : List Char → Option Nat
  | '0' :: 'x' :: rest => natural? 16 rest
  | '0' :: 'o' :: rest => natural? 8 rest
  | '0' :: 'b' :: rest => natural? 2 rest
  | _ => none

/-- A natural number, with or without plus sign. -/
def unsigned? (cs : List Char) : Option Nat :=
  match based? (withoutPlus cs) with
  | some n => some n
  | none => if hasLeadingZero cs then none else natural? 10 (withoutPlus cs)

/-- What follows the minus sign of a negative number. -/
def negated? : List Char → Option Nat
  | '-' :: rest =>
    match based? rest with
    | some n => some n
    | none => if hasLeadingZero rest then none else natural? 10 rest
  | _ => none

/-- An integer of at most 128 bits. -/
def integer? (cs : List Char) : Option Resolution :=
  match unsigned? cs, negated? cs with
  | some n, _ =>
    if n < Nat.pow 2 64 then some (.int n) else if n < Nat.pow 2 128 then some .wide else none
  | none, some n =>
    if n = 0 then some .minusZero
    else if n ≤ Nat.pow 2 63 then some (.int (-n))
    else if n ≤ Nat.pow 2 127 then some .wide
    else none
  | none, none => none

/-- Whether the characters after the mantissa are an exponent, and which. -/
def exponent? : List Char → Option Int
  | [] => some 0
  | c :: rest =>
    if c = 'e' || c = 'E' then
      (natural? 10 (withoutSign rest)).map fun n =>
        if rest.head? = some '-' then -(n : Int) else n
    else none

/-- Whether the characters are a decimal number that a double can hold. -/
def isFiniteDecimal (cs : List Char) : Bool :=
  let cs := withoutSign cs
  let whole := cs.takeWhile Decimal.isDigit
  let rest := cs.dropWhile Decimal.isDigit
  let (fraction, rest) :=
    match rest with
    | '.' :: rest => (rest.takeWhile Decimal.isDigit, rest.dropWhile Decimal.isDigit)
    | _ => ([], rest)
  match exponent? rest with
  | none => false
  | some e =>
    !(whole ++ fraction).isEmpty
      && !Decimal.exceedsDouble (Decimal.value (whole ++ fraction)) (e - fraction.length)

/-- Whether the scalar is a number that is no integer. -/
def isReal (cs : List Char) : Bool :=
  let unsigned := withoutPlus cs
  [".inf", ".Inf", ".INF"].contains (String.ofList unsigned)
    || ["-.inf", "-.Inf", "-.INF", ".nan", ".NaN", ".NAN"].contains (String.ofList cs)
    || (!(cs.head? = some '+' && (unsigned.head? = some '+' || unsigned.head? = some '-'))
      && isFiniteDecimal cs)

/-- What a plain scalar stands for. -/
def ofPlain (s : String) : Resolution :=
  if ["", "~", "null", "Null", "NULL"].contains s then .null
  else if ["true", "True", "TRUE"].contains s then .flag true
  else if ["false", "False", "FALSE"].contains s then .flag false
  else
    match integer? s.toList with
    | some r => r
    | none => if !hasLeadingZero s.toList && isReal s.toList then .real else .text

end Resolution

end JavaTree.Yaml
