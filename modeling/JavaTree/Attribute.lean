/-! # Attributes

    A node carries a finite map from keys to values.  A value is a flag, a
    64-bit integer, a source range or a text.  The map is kept as a list of
    entries in strictly increasing key order, so two maps with the same
    content are equal and every export lists the entries in one order.

    Main facts: `Attributes.get?_insert_self` and `Attributes.get?_insert_ne`
    say what an insertion does to the view `get?`. -/

namespace JavaTree

/-! ## Section 1: Values -/

/-- A line and column in a source file, both counted from one. -/
structure Position where
  /-- Line number. -/
  line : UInt32
  /-- Column number. -/
  column : UInt32
  deriving DecidableEq, Repr

/-- The source range a node covers. -/
structure Span where
  /-- Where the range begins. -/
  start : Position
  /-- Where the range ends. -/
  stop : Position
  deriving DecidableEq, Repr

/-- The value of one attribute. -/
inductive AttrValue where
  | flag (b : Bool)
  | int (i : Int64)
  | span (s : Span)
  | text (s : String)
  deriving DecidableEq, Repr

/-- `line:column`. -/
def Position.display (p : Position) : String :=
  toString p.line.toNat ++ ":" ++ toString p.column.toNat

/-- `line:column-line:column`. -/
def Span.display (s : Span) : String := s.start.display ++ "-" ++ s.stop.display

namespace AttrValue

/-- The value in words. -/
def display : AttrValue → String
  | .flag true => "true"
  | .flag false => "false"
  | .int i => toString i.toInt
  | .span s => s.display
  | .text s => s

/-- The text, if the value is one. -/
def text? : AttrValue → Option String
  | .text s => some s
  | _ => none

/-- The flag, if the value is one. -/
def flag? : AttrValue → Option Bool
  | .flag b => some b
  | _ => none

/-- The integer, if the value is one. -/
def int? : AttrValue → Option Int64
  | .int i => some i
  | _ => none

/-- The source range, if the value is one. -/
def span? : AttrValue → Option Span
  | .span s => some s
  | _ => none

end AttrValue

/-! ## Section 2: Attribute maps -/

/-- Put `value` at `key` into a list of entries in increasing key order. -/
def insertEntry (key : String) (value : AttrValue) :
    List (String × AttrValue) → List (String × AttrValue)
  | [] => [(key, value)]
  | e :: rest =>
    if key < e.1 then (key, value) :: e :: rest
    else if key = e.1 then (key, value) :: rest
    else e :: insertEntry key value rest

theorem mem_insertEntry {key : String} {value : AttrValue} {e : String × AttrValue}
    {entries : List (String × AttrValue)} (h : e ∈ insertEntry key value entries) :
    e = (key, value) ∨ e ∈ entries := by
  induction entries with
  | nil => simpa [insertEntry] using h
  | cons x rest ih =>
    unfold insertEntry at h
    split at h
    · simpa using h
    · split at h
      · rcases List.mem_cons.1 h with h | h
        · exact .inl h
        · exact .inr (List.mem_cons_of_mem _ h)
      · rcases List.mem_cons.1 h with h | h
        · exact .inr (by simp [h])
        · rcases ih h with h | h
          · exact .inl h
          · exact .inr (List.mem_cons_of_mem _ h)

theorem pairwise_insertEntry (key : String) (value : AttrValue)
    (entries : List (String × AttrValue)) (h : entries.Pairwise (·.1 < ·.1)) :
    (insertEntry key value entries).Pairwise (·.1 < ·.1) := by
  induction entries with
  | nil => simp [insertEntry]
  | cons x rest ih =>
    obtain ⟨hx, hrest⟩ := List.pairwise_cons.1 h
    unfold insertEntry
    split
    · rename_i hlt
      refine List.pairwise_cons.2 ⟨?_, h⟩
      intro e he
      rcases List.mem_cons.1 he with he | he
      · exact he ▸ hlt
      · exact String.lt_trans hlt (hx e he)
    · split
      · rename_i heq
        exact List.pairwise_cons.2 ⟨fun e he => by simpa [heq] using hx e he, hrest⟩
      · rename_i hlt hne
        refine List.pairwise_cons.2 ⟨?_, ih hrest⟩
        intro e he
        rcases mem_insertEntry he with he | he
        · subst he
          exact Std.lt_of_le_of_ne (Std.not_lt.1 hlt) (Ne.symm hne)
        · exact hx e he

/-- An attribute map: entries in strictly increasing key order. -/
structure Attributes where
  /-- The entries, smallest key first. -/
  entries : List (String × AttrValue)
  /-- Keys increase strictly, by code point. -/
  sorted : entries.Pairwise (·.1 < ·.1)
  deriving DecidableEq

namespace Attributes

/-- The map without entries. -/
def empty : Attributes := ⟨[], .nil⟩

instance : Inhabited Attributes := ⟨empty⟩

/-- Put a value at a key, replacing any value already there. -/
def insert (a : Attributes) (key : String) (value : AttrValue) : Attributes :=
  ⟨insertEntry key value a.entries, pairwise_insertEntry key value a.entries a.sorted⟩

/-- A map from pairs; of two values at one key the later one stays. -/
def ofList (pairs : List (String × AttrValue)) : Attributes :=
  pairs.foldl (fun a p => a.insert p.1 p.2) empty

/-- The value at a key. -/
def get? (a : Attributes) (key : String) : Option AttrValue := a.entries.lookup key

theorem lookup_insertEntry (key other : String) (value : AttrValue)
    (entries : List (String × AttrValue)) :
    (insertEntry key value entries).lookup other
      = if other = key then some value else entries.lookup other := by
  induction entries with
  | nil =>
    by_cases h : other = key
    · simp [insertEntry, h]
    · simp [insertEntry, List.lookup_cons, List.lookup_nil, h, beq_false_of_ne h]
  | cons x rest ih =>
    obtain ⟨k, v⟩ := x
    unfold insertEntry
    by_cases h : other = key
    · by_cases hk : key < k
      · simp [hk, h]
      · by_cases he : key = k
        · simp [he, h]
        · simp [hk, he, h, List.lookup_cons, beq_false_of_ne he] at ih ⊢
          exact ih
    · by_cases hk : key < k
      · simp [hk, h, List.lookup_cons, beq_false_of_ne h]
      · by_cases he : key = k
        · subst he
          simp [h, List.lookup_cons, beq_false_of_ne h]
        · simp only [hk, he, if_false, List.lookup_cons, h, ih]

/-- What was put at a key is found there. -/
theorem get?_insert_self (a : Attributes) (key : String) (value : AttrValue) :
    (a.insert key value).get? key = some value := by
  simp [get?, insert, lookup_insertEntry]

/-- An insertion leaves the values at other keys alone. -/
theorem get?_insert_ne (a : Attributes) {key other : String} (value : AttrValue)
    (h : other ≠ key) : (a.insert key value).get? other = a.get? other := by
  simp [get?, insert, lookup_insertEntry, h]

/-! ### Typed reading -/

/-- The text at a key; other values read as absent. -/
def text? (a : Attributes) (key : String) : Option String := (a.get? key).bind AttrValue.text?

/-- The text at a key, where an empty text counts as absent. -/
def nonempty? (a : Attributes) (key : String) : Option String :=
  (a.text? key).filter (· ≠ "")

/-- The flag at a key; anything else reads as `false`. -/
def flag (a : Attributes) (key : String) : Bool :=
  ((a.get? key).bind AttrValue.flag?).getD false

/-- The integer at a key; other values read as absent. -/
def int? (a : Attributes) (key : String) : Option Int64 := (a.get? key).bind AttrValue.int?

/-- The count at a key: its integer, or zero if that is absent or negative. -/
def count (a : Attributes) (key : String) : Nat :=
  match a.int? key with
  | some i => i.toInt.toNat
  | none => 0

/-- A count has at most 63 bits. -/
theorem count_lt (a : Attributes) (key : String) : a.count key < Nat.pow 2 63 := by
  simp only [Nat.pow_eq]
  unfold count
  split
  · rename_i i _
    have := i.toInt_lt
    omega
  · decide

/-- Two counts and one more fit into 64 bits. -/
theorem count_add_count_lt (a : Attributes) (key other : String) {n : Nat} (h : n ≤ 1) :
    a.count key + n + a.count other < Nat.pow 2 64 := by
  have hkey := a.count_lt key
  have hother := a.count_lt other
  simp only [Nat.pow_eq] at *
  omega

/-- The source range at a key; other values read as absent. -/
def span? (a : Attributes) (key : String) : Option Span := (a.get? key).bind AttrValue.span?

end Attributes

/-! ## Section 3: Well-known keys -/

namespace Key

/-- Declared or referenced name. -/
def name : String := "name"
/-- Modifiers, as written. -/
def modifiers : String := "modifiers"
/-- Type, as written. -/
def type : String := "type"
/-- Extended types. -/
def superTypes : String := "extends"
/-- Implemented interfaces. -/
def interfaces : String := "implements"
/-- Declared exceptions. -/
def thrown : String := "throws"
/-- Bound of a type parameter. -/
def bound : String := "bound"
/-- Text of a literal. -/
def value : String := "value"
/-- Operator of an expression. -/
def operator : String := "operator"
/-- Text of a comment between its delimiters. -/
def content : String := "content"
/-- Label of a labeled statement, or target of a jump. -/
def label : String := "label"
/-- Whether an import or initializer is static. -/
def isStatic : String := "static"
/-- Whether an import ends in `.*`. -/
def asterisk : String := "asterisk"
/-- Whether a parameter takes any number of arguments. -/
def varargs : String := "varargs"
/-- Whether a unary operator follows its operand. -/
def trailingOperator : String := "postfix"
/-- Whether a method call has a receiver as first child. -/
def hasScope : String := "scoped"
/-- Number of initializers of a `for`. -/
def init : String := "init"
/-- Number of updates of a `for`. -/
def update : String := "update"
/-- Whether a `for` has a condition. -/
def condition : String := "condition"
/-- Number of resources of a `try`. -/
def resources : String := "resources"
/-- Whether the last child of a `try` is its `finally` block. -/
def hasFinally : String := "finally"
/-- Number of labels of a switch entry. -/
def labels : String := "labels"
/-- Number of empty `[]` groups of an array creation. -/
def extraDims : String := "extra_dims"
/-- Source range of the node. -/
def range : String := "range"

end Key

end JavaTree
