/-! # Panics

    Some operations have an answer only within their bounds: a text has room
    for so many bytes, a slice ends where its list ends, a number has so many
    bits.  Beyond the bounds they panic.  A panic is no failure that somebody
    reports; it breaks off whatever is going on.

    Each operation is stated with its bounds here, and what it answers within
    them is a lemma beside it. -/

namespace JavaTree

/-- Why an operation panics. -/
inductive Panic where
  /-- A text would have more than `maxBytes` bytes. -/
  | capacity
  /-- A position or the end of a slice lies beyond the end of a list. -/
  | outOfRange
  /-- A number does not fit into 64 bits. -/
  | overflow
  deriving DecidableEq, Repr

/-- The wording of a panic. -/
def Panic.message : Panic → String
  | .capacity => "capacity overflow"
  | .outOfRange => "index out of range"
  | .overflow => "arithmetic overflow"

/-- The largest number of bytes that a text may have. -/
def maxBytes : Nat := Nat.pow 2 63 - 1

/-! ## Section 1: Repeated texts -/

namespace Text

/-- The empty text, with room for a number of bytes. -/
def withRoom (bytes : Nat) : String :=
  String.fromUTF8 (ByteArray.emptyWithCapacity bytes) ByteArray.isValidUTF8_empty

theorem withRoom_eq (bytes : Nat) : withRoom bytes = "" := rfl

/-- A text a number of times behind itself.  Room for the whole is made before
    the first copy. -/
def copies (count : Nat) (s : String) : String :=
  count.fold (fun _ _ t => t ++ s) (withRoom (count * s.utf8ByteSize))

theorem copies_zero (s : String) : copies 0 s = "" := rfl

theorem copies_succ (count : Nat) (s : String) : copies (count + 1) s = copies count s ++ s := by
  rw [copies, copies, Nat.fold_succ, withRoom_eq, withRoom_eq]

/-- The size of the whole is what room was made for. -/
theorem utf8ByteSize_copies (count : Nat) (s : String) :
    (copies count s).utf8ByteSize = count * s.utf8ByteSize := by
  induction count with
  | zero => rw [copies_zero, Nat.zero_mul, String.utf8ByteSize_empty]
  | succ count ih => rw [copies_succ, String.utf8ByteSize_append, ih, Nat.succ_mul]

/-- A text a number of times, if there is room for it. -/
def repeated (count : Nat) (s : String) : Except Panic String :=
  if count * s.utf8ByteSize ≤ maxBytes then .ok (copies count s) else .error .capacity

theorem repeated_eq_ok {count : Nat} {s : String} (h : count * s.utf8ByteSize ≤ maxBytes) :
    repeated count s = .ok (copies count s) := if_pos h

theorem repeated_eq_error {count : Nat} {s : String} (h : maxBytes < count * s.utf8ByteSize) :
    repeated count s = .error .capacity := if_neg (Nat.not_le.2 h)

end Text

/-! ## Section 2: Positions and sums -/

namespace Checked

variable {α : Type}

/-- A sum of at most 64 bits. -/
def add (m n : Nat) : Except Panic Nat :=
  if m + n < Nat.pow 2 64 then .ok (m + n) else .error .overflow

/-- The element at a position. -/
def item (xs : List α) (i : Nat) : Except Panic α :=
  match xs[i]? with
  | some x => .ok x
  | none => .error .outOfRange

/-- The slice before a position. -/
def front (xs : List α) (n : Nat) : Except Panic (List α) :=
  if n ≤ xs.length then .ok (xs.take n) else .error .outOfRange

/-- The slice from a position on. -/
def back (xs : List α) (n : Nat) : Except Panic (List α) :=
  if n ≤ xs.length then .ok (xs.drop n) else .error .outOfRange

theorem add_ok {m n : Nat} (h : m + n < Nat.pow 2 64) : add m n = .ok (m + n) := if_pos h

theorem item_ok {xs : List α} {i : Nat} {x : α} (h : xs[i]? = some x) : item xs i = .ok x := by
  rw [item, h]

theorem front_ok {xs : List α} {n : Nat} (h : n ≤ xs.length) : front xs n = .ok (xs.take n) :=
  if_pos h

theorem back_ok {xs : List α} {n : Nat} (h : n ≤ xs.length) : back xs n = .ok (xs.drop n) :=
  if_pos h

end Checked

end JavaTree
