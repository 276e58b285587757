import JavaTree.Text.Decimal

/-! # JSON tokens

    The lexical layer of JSON.  `Token.scan` cuts a text into tokens.  Where
    the text stops being lexically correct, the list ends with
    `Token.invalid`, so that a reader meets every earlier problem first.

    A string with an unpaired surrogate escape has no text.  It is still a
    token, because a reader may skip it. -/

namespace JavaTree.Json

/-- A number literal.  Integers of at most 64 bits (signed or unsigned) are
    exact; every other literal is `significand * 10 ^ exponent`, up to the
    digits that do not fit into 64 bits. -/
inductive Number where
  | integer (i : Int)
  | decimal (significand : Int) (exponent : Int)
  deriving DecidableEq, Repr

/-- A lexical element. -/
inductive Token where
  | openBrace
  | closeBrace
  | openBracket
  | closeBracket
  | colon
  | comma
  | null
  | bool (b : Bool)
  | number (n : Number)
  /-- A string, without text if it holds an unpaired surrogate. -/
  | string (s : Option String)
  /-- The text is lexically wrong from here on. -/
  | invalid
  deriving DecidableEq, Repr

/-! ## Section 1: Strings -/

/-- A string literal being read: its characters in reverse, a high surrogate
    waiting for its partner, and whether all surrogates so far were paired. -/
structure Pending where
  /-- Characters read so far, last one first. -/
  chars : List Char := []
  /-- A high surrogate that was just read. -/
  high : Option Nat := none
  /-- Whether no surrogate was left without its partner. -/
  paired : Bool := true

namespace Pending

/-- Add a character that is not a surrogate. -/
def addChar (p : Pending) (c : Char) : Pending :=
  { chars := c :: p.chars, high := none, paired := p.paired && p.high.isNone }

/-- Add a 16-bit unit from a `\u` escape. -/
def addUnit (p : Pending) (unit : Nat) : Pending :=
  if 0xDC00 ≤ unit && unit ≤ 0xDFFF then
    match p.high with
    | some high =>
      { p with
        chars := Char.ofNat (0x10000 + (high - 0xD800) * 0x400 + (unit - 0xDC00)) :: p.chars
        high := none }
    | none => { p with paired := false }
  else if 0xD800 ≤ unit && unit ≤ 0xDBFF then
    { p with high := some unit, paired := p.paired && p.high.isNone }
  else p.addChar (Char.ofNat unit)

/-- The text of the finished literal. -/
def text? (p : Pending) : Option String :=
  if p.paired && p.high.isNone then some (String.ofList p.chars.reverse) else none

end Pending

/-- The character a two-character escape stands for. -/
def unescape? : Char → Option Char
  | '"' => some '"'
  | '\\' => some '\\'
  | '/' => some '/'
  | 'b' => some '\x08'
  | 'f' => some '\x0c'
  | 'n' => some '\n'
  | 'r' => some '\r'
  | 't' => some '\t'
  | _ => none

/-- The value of four hexadecimal digits. -/
def unit? (a b c d : Char) : Option Nat :=
  if [a, b, c, d].all (Decimal.isDigitIn 16) then some (Decimal.valueIn 16 [a, b, c, d]) else none

/-- Read the rest of a string literal, after its opening quote. -/
def scanString (p : Pending) : List Char → Option (Option String × List Char)
  | [] => none
  | '"' :: rest => some (p.text?, rest)
  | '\\' :: 'u' :: a :: b :: c :: d :: rest =>
    match unit? a b c d with
    | some unit => scanString (p.addUnit unit) rest
    | none => none
  | '\\' :: c :: rest =>
    match unescape? c with
    | some e => scanString (p.addChar e) rest
    | none => none
  | c :: rest => if c.toNat < 0x20 || c = '\\' then none else scanString (p.addChar c) rest

theorem length_of_scanString {p : Pending} {cs : List Char} {r : Option String × List Char}
    (h : scanString p cs = some r) : r.2.length < cs.length := by
  fun_induction scanString p cs with
  | case1 => simp at h
  | case2 p rest =>
    obtain rfl := Option.some.inj h
    simp
  | case3 p a b c d rest unit hu ih =>
    have := ih h
    simp only [List.length_cons]
    omega
  | case4 => simp at h
  | case5 p c rest e he hu ih =>
    have := ih h
    simp only [List.length_cons]
    omega
  | case6 => simp at h
  | case7 => simp at h
  | case8 p c rest _ _ _ _ ih =>
    have := ih h
    simp only [List.length_cons]
    omega

/-! ## Section 2: Numbers -/

/-- Split off the leading digits. -/
def digitRun (cs : List Char) : List Char × List Char :=
  (cs.takeWhile Decimal.isDigit, cs.dropWhile Decimal.isDigit)

theorem length_digitRun (cs : List Char) : (digitRun cs).2.length ≤ cs.length :=
  (List.dropWhile_sublist _).length_le

/-- Read the integer part: a zero, or digits that do not start with zero. -/
def scanWhole : List Char → Option (List Char × List Char)
  | '0' :: rest => if (rest.head?.map Decimal.isDigit).getD false then none else some (['0'], rest)
  | cs => if (digitRun cs).1.isEmpty then none else some (digitRun cs)

/-- Read an optional fraction: its digits, none if there is no point. -/
def scanFraction : List Char → Option (List Char × List Char)
  | '.' :: rest => if (digitRun rest).1.isEmpty then none else some (digitRun rest)
  | cs => some ([], cs)

/-- Read an optional sign. -/
def scanSign : List Char → Bool × List Char
  | '-' :: rest => (true, rest)
  | '+' :: rest => (false, rest)
  | cs => (false, cs)

/-- Read an optional exponent. -/
def scanExponent : List Char → Option (Option Int × List Char)
  | cs@(c :: rest) =>
    if c = 'e' || c = 'E' then
      let (negative, rest) := scanSign rest
      let (digits, rest) := digitRun rest
      if digits.isEmpty then none
      else
        let n : Int := Decimal.value digits
        some (some (if negative then -n else n), rest)
    else some (none, cs)
  | [] => some (none, [])

/-- The number a literal stands for.  A negative zero is no integer.  Of the
    digits that do not fit into 64 bits, those before the point still count
    as places. -/
def Number.ofParts (negative : Bool) (whole fraction : List Char) (exponent : Option Int) :
    Number :=
  let (significand, places) := Decimal.readFitting 0 whole
  let (significand, unread) := Decimal.readFitting significand fraction
  let signed : Int := if negative then -(significand : Int) else significand
  let isInteger := fraction.isEmpty && exponent.isNone && places.isEmpty
    && !(negative && significand = 0)
  if isInteger && -(Nat.pow 2 63 : Int) ≤ signed then .integer signed
  else .decimal signed (exponent.getD 0 + places.length - (fraction.length - unread.length))

/-- Whether the literal stands for a number that a double can hold. -/
def Number.isFinite : Number → Bool
  | .integer _ => true
  | .decimal significand exponent => !Decimal.productExceedsDouble significand.natAbs exponent

/-- Read a number literal, longest match first. -/
def scanNumber (cs : List Char) : Option (Number × List Char) := do
  let (negative, rest) :=
    match cs with
    | '-' :: rest => (true, rest)
    | _ => (false, cs)
  let (whole, rest) ← scanWhole rest
  let (fraction, rest) ← scanFraction rest
  let (exponent, rest) ← scanExponent rest
  return (Number.ofParts negative whole fraction exponent, rest)

theorem length_of_scanWhole {cs : List Char} {r : List Char × List Char}
    (h : scanWhole cs = some r) : r.2.length < cs.length := by
  unfold scanWhole at h
  split at h
  · split at h
    · simp at h
    · obtain rfl := Option.some.inj h
      simp
  · split at h
    · simp at h
    · rename_i hne
      obtain rfl := Option.some.inj h
      cases cs with
      | nil => simp [digitRun] at hne
      | cons c rest =>
        unfold digitRun at hne ⊢
        by_cases hc : Decimal.isDigit c
        · have := (List.dropWhile_sublist Decimal.isDigit (l := rest)).length_le
          simp only [List.dropWhile_cons, hc, if_true, List.length_cons]
          omega
        · simp [hc] at hne

theorem length_of_scanFraction {cs : List Char} {r : List Char × List Char}
    (h : scanFraction cs = some r) : r.2.length ≤ cs.length := by
  unfold scanFraction at h
  split at h
  · split at h
    · simp at h
    · rename_i rest _
      obtain rfl := Option.some.inj h
      have := length_digitRun rest
      simp only [List.length_cons]
      omega
  · obtain rfl := Option.some.inj h
    simp

theorem length_scanSign (cs : List Char) : (scanSign cs).2.length ≤ cs.length := by
  unfold scanSign
  split <;> simp

theorem length_of_scanExponent {cs : List Char} {r : Option Int × List Char}
    (h : scanExponent cs = some r) : r.2.length ≤ cs.length := by
  unfold scanExponent at h
  split at h
  · rename_i c rest
    split at h
    · have h1 := length_scanSign rest
      have h2 := length_digitRun (scanSign rest).2
      simp only at h
      split at h
      · simp at h
      · obtain rfl := Option.some.inj h
        simp only [List.length_cons]
        omega
    · obtain rfl := Option.some.inj h
      simp
  · obtain rfl := Option.some.inj h
    simp

theorem length_of_scanNumber {cs : List Char} {r : Number × List Char}
    (h : scanNumber cs = some r) : r.2.length < cs.length := by
  unfold scanNumber at h
  simp only [Option.bind_eq_bind, Option.bind_eq_some_iff, Option.pure_def] at h
  obtain ⟨w, hw, f, hf, e, he, hr⟩ := h
  obtain rfl := Option.some.inj hr
  have h1 := length_of_scanWhole hw
  have h2 := length_of_scanFraction hf
  have h3 := length_of_scanExponent he
  have h4 : (match cs with
      | '-' :: rest => ((true, rest) : Bool × List Char)
      | _ => (false, cs)).2.length ≤ cs.length := by
    split <;> simp
  simp only
  omega

/-! ## Section 3: The scanner -/

/-- Whether the character may stand between tokens. -/
def isSpace (c : Char) : Bool := c = ' ' || c = '\n' || c = '\t' || c = '\r'

/-- The token that starts with `c`, and the text after it. -/
def Token.next (c : Char) (rest : List Char) : Token × List Char :=
  match c, rest with
  | '\x7b', _ => (.openBrace, rest)
  | '\x7d', _ => (.closeBrace, rest)
  | '[', _ => (.openBracket, rest)
  | ']', _ => (.closeBracket, rest)
  | ':', _ => (.colon, rest)
  | ',', _ => (.comma, rest)
  | '"', _ =>
    match scanString {} rest with
    | some (s, rest) => (.string s, rest)
    | none => (.invalid, [])
  | 'n', 'u' :: 'l' :: 'l' :: rest => (.null, rest)
  | 't', 'r' :: 'u' :: 'e' :: rest => (.bool true, rest)
  | 'f', 'a' :: 'l' :: 's' :: 'e' :: rest => (.bool false, rest)
  | _, _ =>
    match scanNumber (c :: rest) with
    | some (n, rest) => (.number n, rest)
    | none => (.invalid, [])

theorem Token.length_next (c : Char) (rest : List Char) :
    (Token.next c rest).2.length ≤ rest.length := by
  unfold Token.next
  split <;> try simp
  · split
    · rename_i h
      exact Nat.le_of_lt (length_of_scanString h)
    · simp
  all_goals try omega
  · split
    · rename_i h
      have := length_of_scanNumber h
      simp only [List.length_cons] at this ⊢
      omega
    · simp

/-- Collect tokens in front of those already found, last one first. -/
def Token.scanOnto (found : List Token) : List Char → List Token
  | [] => found
  | c :: rest =>
    if isSpace c then scanOnto found rest
    else scanOnto ((Token.next c rest).1 :: found) (Token.next c rest).2
termination_by cs => cs.length
decreasing_by
  · simp
  · have := Token.length_next c rest
    simp only [List.length_cons]
    omega

/-- The tokens of a text. -/
def Token.scan (text : String) : List Token := (Token.scanOnto [] text.toList).reverse

end JavaTree.Json
