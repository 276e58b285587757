/-! # Decimal numerals

    Runs of digits and their value, and two tests whether a decimal number is
    too large for a double-precision float.  `exceedsDouble` is exact: it
    compares with the smallest number that rounds to infinity.
    `productExceedsDouble` is the test of a reader that multiplies floats: it
    rounds both factors before it compares their product with that number. -/

namespace JavaTree.Decimal

/-- Whether the character is one of `0` to `9`. -/
def isDigit (c : Char) : Bool := '0' ≤ c && c ≤ '9'

/-- The value of a digit in any base up to 16. -/
def digitValue (c : Char) : Nat :=
  if isDigit c then c.toNat - '0'.toNat
  else if 'a' ≤ c && c ≤ 'f' then c.toNat - 'a'.toNat + 10
  else if 'A' ≤ c && c ≤ 'F' then c.toNat - 'A'.toNat + 10
  else 0

/-- Whether the character is a digit in the given base, up to base 16. -/
def isDigitIn (base : Nat) (c : Char) : Bool :=
  (isDigit c || ('a' ≤ c && c ≤ 'f') || ('A' ≤ c && c ≤ 'F')) && digitValue c < base

/-- The value of a run of digits in a base. -/
def valueIn (base : Nat) (digits : List Char) : Nat :=
  digits.foldl (fun n c => n * base + digitValue c) 0

/-- The value of a run of decimal digits. -/
def value (digits : List Char) : Nat := valueIn 10 digits

/-- Read as many digits as fit into 64 bits, onto a number already read: the
    number, and the digits left over. -/
def readFitting (n : Nat) : List Char → Nat × List Char
  | [] => (n, [])
  | c :: rest =>
    let next := n * 10 + digitValue c
    if next < Nat.pow 2 64 then readFitting next rest else (n, c :: rest)

/-- The decimal digits of a natural number, without leading zeros. -/
def digits (n : Nat) : List Char := Nat.toDigits 10 n

/-- The smallest natural number that rounds to infinity as a double. -/
def doubleBound : Nat := Nat.pow 2 1024 - Nat.pow 2 970

/-- Whether `mantissa * 10 ^ exponent` rounds to infinity as a double.  Far
    from the bound the number of digits decides, so that no huge power is
    computed. -/
def exceedsDouble (mantissa : Nat) (exponent : Int) : Bool :=
  if mantissa = 0 then false
  else
    let magnitude : Int := (digits mantissa).length + exponent
    if magnitude < 300 then false
    else if 320 < magnitude then true
    else
      match exponent with
      | .ofNat e => doubleBound ≤ mantissa * Nat.pow 10 e
      | .negSucc e => doubleBound * Nat.pow 10 (e + 1) ≤ mantissa

/-- The nearest natural number of at most 53 significant bits.  Of two that
    are equally near, the one whose last bit is zero. -/
def roundToDouble (n : Nat) : Nat :=
  let unit := Nat.pow 2 (Nat.log2 n + 1 - 53)
  let quotient := n / unit
  let remainder := n % unit
  let isUp := unit < 2 * remainder || (unit = 2 * remainder && quotient % 2 = 1)
  (if isUp then quotient + 1 else quotient) * unit

/-- Whether the product of `significand` and `10 ^ exponent`, taken as
    doubles, rounds to infinity.  No greater power of ten is a double than
    that of 308. -/
def productExceedsDouble (significand : Nat) : (exponent : Int) → Bool
  | .negSucc _ => false
  | .ofNat e =>
    significand ≠ 0
      && (308 < e
        || doubleBound ≤ roundToDouble significand * roundToDouble (Nat.pow 10 e))

end JavaTree.Decimal
