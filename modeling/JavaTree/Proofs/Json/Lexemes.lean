import JavaTree.Json.Printer

/-! # Strings and numbers read back

    The lexical half of the JSON round trip.  A string literal is read back
    to the text it was written for, whatever characters the text holds
    (`scanString_quote`), and a number literal to its integer, if that has at
    most 64 bits (`scanNumber_render`).  Both are stated for any text that
    follows the literal; a number must not be followed by a character that
    would continue it. -/

namespace JavaTree

/-! ## Section 1: Runs of digits -/

namespace Decimal

theorem isDigit_eq (c : Char) : isDigit c = c.isDigit := by
  rw [isDigit, Char.isDigit]
  rfl

theorem digitValue_of_isDigit {c : Char} (h : isDigit c) : digitValue c = c.toNat - '0'.toNat := by
  rw [digitValue, if_pos h]

theorem isDigit_of_mem_toDigits {n : Nat} {c : Char} (h : c ∈ Nat.toDigits 10 n) : isDigit c := by
  rw [isDigit_eq]
  exact Nat.isDigit_of_mem_toDigits (by decide) (by decide) h

/-- A number with more than one digit does not begin with a zero. -/
theorem toDigits_head_ne_zero {n : Nat} (h : 0 < n) (rest : List Char) :
    Nat.toDigits 10 n ≠ '0' :: rest := by
  induction n using Nat.strongRecOn generalizing rest with
  | _ n ih =>
    by_cases hlt : n < 10
    · rw [Nat.toDigits_of_lt_base hlt]
      intro heq
      have hzero : n.digitChar = '0' := (List.cons.inj heq).1
      rw [Nat.digitChar_eq_zero] at hzero
      omega
    · rw [Nat.toDigits_of_base_le (by decide) (by omega)]
      intro heq
      -- The first digit is that of the number without its last digit.
      cases hfront : Nat.toDigits 10 (n / 10) with
      | nil => exact Nat.toDigits_ne_nil hfront
      | cons c cs =>
        rw [hfront, List.cons_append] at heq
        rw [(List.cons.inj heq).1] at hfront
        exact ih (n / 10) (by omega) (by omega) cs hfront

/-- Reading digits leaves none over if the number they make has at most 64
    bits. -/
theorem readFitting_eq {n : Nat} {cs : List Char} (hdigits : ∀ c ∈ cs, isDigit c)
    (hlt : Nat.ofDigitChars 10 cs n < Nat.pow 2 64) :
    readFitting n cs = (Nat.ofDigitChars 10 cs n, []) := by
  induction cs generalizing n with
  | nil => rfl
  | cons c cs ih =>
    have hnext : n * 10 + digitValue c = 10 * n + (c.toNat - '0'.toNat) := by
      rw [digitValue_of_isDigit (hdigits c List.mem_cons_self)]
      omega
    rw [Nat.ofDigitChars_cons] at hlt ⊢
    -- What is read so far never exceeds the whole number.
    have hle : 10 * n + (c.toNat - '0'.toNat) ≤
        Nat.ofDigitChars 10 cs (10 * n + (c.toNat - '0'.toNat)) := by
      rw [Nat.ofDigitChars_eq_ofDigitChars_zero]
      exact Nat.le_trans (Nat.le_mul_of_pos_left _ (Nat.pow_pos (by decide))) (Nat.le_add_right _ _)
    rw [readFitting, hnext, if_pos (Nat.lt_of_le_of_lt hle hlt)]
    exact ih (fun d hd => hdigits d (List.mem_cons_of_mem c hd)) hlt

theorem readFitting_toDigits {n : Nat} (h : n < Nat.pow 2 64) :
    readFitting 0 (Nat.toDigits 10 n) = (n, []) := by
  have hdigits : ∀ c ∈ Nat.toDigits 10 n, isDigit c := fun c hc => isDigit_of_mem_toDigits hc
  rw [readFitting_eq hdigits (by rwa [Nat.ofDigitChars_ten_toDigits]),
    Nat.ofDigitChars_ten_toDigits]

end Decimal

namespace Json

/-! ## Section 2: Numbers -/

/-- A text that does not go on with a number: it is empty or begins with a
    character that no number literal holds after its first digit. -/
def EndsNumber : List Char → Prop
  | [] => True
  | c :: _ => Decimal.isDigit c = false ∧ c ≠ '.' ∧ c ≠ 'e' ∧ c ≠ 'E'

theorem digitRun_append {ds rest : List Char} (hdigits : ∀ c ∈ ds, Decimal.isDigit c)
    (hrest : EndsNumber rest) : digitRun (ds ++ rest) = (ds, rest) := by
  have htake : rest.takeWhile Decimal.isDigit = [] := by
    cases rest with
    | nil => rfl
    | cons c rest => simp [hrest.1]
  have hdrop : rest.dropWhile Decimal.isDigit = rest := by
    cases rest with
    | nil => rfl
    | cons c rest => simp [hrest.1]
  rw [digitRun, List.takeWhile_append_of_pos hdigits, List.dropWhile_append_of_pos hdigits, htake,
    hdrop, List.append_nil]

theorem scanWhole_toDigits (n : Nat) {rest : List Char} (hrest : EndsNumber rest) :
    scanWhole (Nat.toDigits 10 n ++ rest) = some (Nat.toDigits 10 n, rest) := by
  by_cases hzero : n = 0
  · subst hzero
    cases rest with
    | nil => rfl
    | cons c rest => simp [Nat.toDigits_zero, scanWhole, hrest.1]
  · have hrun := digitRun_append (fun c hc => Decimal.isDigit_of_mem_toDigits (n := n) hc) hrest
    cases hdigits : Nat.toDigits 10 n with
    | nil => exact absurd hdigits Nat.toDigits_ne_nil
    | cons c cs =>
      have hc : c ≠ '0' := by
        intro h
        rw [h] at hdigits
        exact Decimal.toDigits_head_ne_zero (by omega) cs hdigits
      rw [hdigits, List.cons_append] at hrun
      rw [List.cons_append]
      unfold scanWhole
      split
      · rename_i heq
        exact absurd (List.cons.inj heq).1 hc
      · rw [hrun]
        rfl

theorem scanFraction_of_endsNumber {rest : List Char} (hrest : EndsNumber rest) :
    scanFraction rest = some ([], rest) := by
  unfold scanFraction
  split
  · exact absurd rfl hrest.2.1
  · rfl

theorem scanExponent_of_endsNumber {rest : List Char} (hrest : EndsNumber rest) :
    scanExponent rest = some (none, rest) := by
  cases rest with
  | nil => rfl
  | cons c rest => simp [scanExponent, hrest.2.2.1, hrest.2.2.2]

/-- The parts of a literal without fraction and exponent make up its integer. -/
theorem ofParts_toDigits (negative : Bool) {n : Nat} (hn : n < Nat.pow 2 64)
    (hzero : negative → n ≠ 0) (hlow : negative → n ≤ Nat.pow 2 63) :
    Number.ofParts negative (Nat.toDigits 10 n) [] none =
      .integer (if negative then -(n : Int) else n) := by
  cases negative with
  | false =>
    simp [Number.ofParts, Decimal.readFitting_toDigits hn, Decimal.readFitting]
  | true =>
    have hne := hzero rfl
    have hle := hlow rfl
    simp [Number.ofParts, Decimal.readFitting_toDigits hn, Decimal.readFitting, hne]
    simp only [Nat.pow_eq] at hle
    omega

/-- The characters of an integer literal. -/
theorem toList_render (i : Int) : (Number.integer i).render.toList =
    if 0 ≤ i then Nat.toDigits 10 i.toNat else '-' :: Nat.toDigits 10 (-i).toNat := by
  rw [Number.render, Int.toString_eq_repr, Int.repr_eq_if]
  split
  · rw [Nat.repr_eq_ofList_toDigits, String.toList_ofList]
  · simp [Nat.repr_eq_ofList_toDigits]

theorem scanNumber_of_digit {c : Char} (hc : Decimal.isDigit c) (cs : List Char) :
    scanNumber (c :: cs) = do
      let (whole, rest) ← scanWhole (c :: cs)
      let (fraction, rest) ← scanFraction rest
      let (exponent, rest) ← scanExponent rest
      return (Number.ofParts false whole fraction exponent, rest) := by
  have hminus : c ≠ '-' := by
    rintro rfl
    exact absurd hc (by decide)
  unfold scanNumber
  split
  rename_i negative rest heq
  split at heq
  · rename_i hcons
    exact absurd (List.cons.inj hcons).1 hminus
  · cases heq
    rfl

/-- An integer of at most 64 bits is read back from its literal. -/
theorem scanNumber_render {i : Int} (hlow : -(Nat.pow 2 63 : Int) ≤ i)
    (hhigh : i < Nat.pow 2 64) {rest : List Char} (hrest : EndsNumber rest) :
    scanNumber ((Number.integer i).render.toList ++ rest) = some (.integer i, rest) := by
  rw [toList_render]
  split
  · rename_i hi
    have hwhole := scanWhole_toDigits i.toNat hrest
    have hparts := ofParts_toDigits false (n := i.toNat) (by omega) (by simp) (by simp)
    cases hdigits : Nat.toDigits 10 i.toNat with
    | nil => exact absurd hdigits Nat.toDigits_ne_nil
    | cons c cs =>
      have hc : Decimal.isDigit c := Decimal.isDigit_of_mem_toDigits (hdigits ▸ List.mem_cons_self)
      rw [hdigits, List.cons_append] at hwhole
      rw [hdigits] at hparts
      rw [List.cons_append, scanNumber_of_digit hc, hwhole]
      simp [scanFraction_of_endsNumber hrest, scanExponent_of_endsNumber hrest, hparts]
      omega
  · have hwhole := scanWhole_toDigits (-i).toNat hrest
    have hle : (-i).toNat ≤ Nat.pow 2 63 := by omega
    have hparts := ofParts_toDigits true (n := (-i).toNat) (Nat.lt_of_le_of_lt hle (by decide))
      (fun _ => by omega) (fun _ => hle)
    rw [List.cons_append, scanNumber]
    simp [hwhole, scanFraction_of_endsNumber hrest, scanExponent_of_endsNumber hrest, hparts]
    omega

/-! ## Section 3: Strings -/

theorem hexDigit_read : ∀ n < 16,
    Decimal.isDigitIn 16 (hexDigit n) = true ∧ Decimal.digitValue (hexDigit n) = n := by
  decide

/-- A control character is read back from the four digits of its escape. -/
theorem unit?_control {n : Nat} (h : n < 0x20) :
    unit? '0' '0' (hexDigit (n / 16)) (hexDigit (n % 16)) = some n := by
  obtain ⟨hhigh, vhigh⟩ := hexDigit_read (n / 16) (by omega)
  obtain ⟨hlow, vlow⟩ := hexDigit_read (n % 16) (by omega)
  have hzero : Decimal.isDigitIn 16 '0' = true ∧ Decimal.digitValue '0' = 0 := by decide
  simp [unit?, hhigh, hlow, hzero, Decimal.valueIn, vhigh, vlow]
  omega

theorem addUnit_of_lt {p : Pending} {c : Char} (h : c.toNat < 0x20) :
    p.addUnit c.toNat = p.addChar c := by
  have hlow : ¬(0xDC00 ≤ c.toNat ∧ c.toNat ≤ 0xDFFF) := by omega
  have hhigh : ¬(0xD800 ≤ c.toNat ∧ c.toNat ≤ 0xDBFF) := by omega
  simp [Pending.addUnit, hlow, hhigh]

theorem scanString_plain {c : Char} (hquote : c ≠ '"') (hslash : c ≠ '\\')
    (hcontrol : ¬c.toNat < 0x20) (p : Pending) (rest : List Char) :
    scanString p (c :: rest) = scanString (p.addChar c) rest := by
  have hkept : ¬(c.toNat < 0x20 || c = '\\') = true := by
    simp [hslash]
    omega
  rw [scanString]
  · rw [if_neg hkept]
  all_goals simp_all

/-- Whatever a character is written as, reading that adds the character. -/
theorem scanString_escapeChar (p : Pending) (c : Char) (rest : List Char) :
    scanString p (escapeChar c ++ rest) = scanString (p.addChar c) rest := by
  unfold escapeChar
  split
  case h_8 hquote hslash _ _ _ _ _ =>
    split
    · rename_i hcontrol
      simp only [List.cons_append, List.nil_append]
      rw [scanString, unit?_control hcontrol]
      simp only [addUnit_of_lt hcontrol]
    · rename_i hcontrol
      exact scanString_plain hquote hslash hcontrol p rest
  -- The other cases are the two-character escapes.
  all_goals
    simp only [List.cons_append, List.nil_append]
    rw [scanString.eq_def]
    rfl

theorem scanString_flatMap_escapeChar (p : Pending) (cs rest : List Char) :
    scanString p (cs.flatMap escapeChar ++ rest) =
      scanString (cs.foldl Pending.addChar p) rest := by
  induction cs generalizing p with
  | nil => rfl
  | cons c cs ih =>
    rw [List.flatMap_cons, List.append_assoc, scanString_escapeChar, ih]
    rfl

theorem foldl_addChar {p : Pending} (hhigh : p.high = none) (cs : List Char) :
    cs.foldl Pending.addChar p = { p with chars := cs.reverse ++ p.chars } := by
  induction cs generalizing p with
  | nil => rfl
  | cons c cs ih =>
    rw [List.foldl_cons, ih (p := p.addChar c) rfl]
    simp [Pending.addChar, hhigh]

/-- Every text is read back from its literal. -/
theorem scanString_quote (s : String) (rest : List Char) :
    scanString {} (s.toList.flatMap escapeChar ++ '"' :: rest) = some (some s, rest) := by
  rw [scanString_flatMap_escapeChar, foldl_addChar rfl, scanString]
  simp [Pending.text?]

end Json

end JavaTree
