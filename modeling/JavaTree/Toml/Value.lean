/-! # TOML values

    A TOML text gives a table.  Tables come about in four ways, and which one
    decides whether more may be put into them later:

    * by a header of their own (`[a]`);
    * as the way to a header (`a` in `[a.b]`);
    * as the way to a key (`a` in `a.b = 1`);
    * in braces, after which nothing is added any more.

    `Entries.add?` and `Entries.modify?` keep to these rules. -/

namespace JavaTree.Toml

/-! ## Section 1: Types -/

/-- How a table came about. -/
inductive Origin where
  /-- By a header of its own. -/
  | header
  /-- On the way to a header. -/
  | headerPath
  /-- On the way to a key. -/
  | keyPath
  /-- In braces. -/
  | braces
  deriving DecidableEq, Repr

/-- A value. -/
inductive Value where
  | string (s : String)
  | integer (i : Int)
  | boolean (b : Bool)
  /-- A number that is no integer. -/
  | float
  /-- A date, a time, or both. -/
  | datetime
  | array (items : List Value)
  | table (origin : Origin) (entries : List (String × Value))
  /-- Tables under one repeated header, the latest first. -/
  | tables (items : List (List (String × Value)))

/-- The entries of a table. -/
abbrev Entries := List (String × Value)

/-! ## Section 2: Growing a table -/

/-- Replace the value of a key, or add it at the end. -/
def Entries.set (es : Entries) (key : String) (v : Value) : Entries :=
  match es with
  | [] => [(key, v)]
  | (k, w) :: rest => if k = key then (k, v) :: rest else (k, w) :: Entries.set rest key v

/-- Add a key that is not there yet. -/
def Entries.add? (es : Entries) (key : String) (v : Value) : Option Entries :=
  if (es.lookup key).isSome then none else some (es ++ [(key, v)])

/-- Whether a table that came about in one way may be entered on the way to a
    key.  Tables with a header of their own may not. -/
def Origin.allowsKeyPath : Origin → Bool
  | .headerPath => true
  | .keyPath => true
  | _ => false

/-- Change the table at the end of a path, making the tables on the way as
    far as they are missing.  `onKeys` tells the way to a key from the way to
    a header; `change` gets to know how the table came about. -/
def Entries.modify? (onKeys : Bool) (origin : Origin) (es : Entries) :
    List String → (change : Origin → Entries → Option Entries) → Option Entries
  | [], change => change origin es
  | key :: path, change =>
    let fresh := if onKeys then Origin.keyPath else Origin.headerPath
    match (es.lookup key).getD (.table fresh []) with
    | .table o inner =>
      -- Braces are closed for good, and keys do not enter what has a header.
      if o = .braces || (onKeys && !o.allowsKeyPath) then none
      else do
        let inner ← Entries.modify? onKeys o inner path change
        return es.set key (.table o inner)
    | .tables (last :: earlier) => do
      -- Of tables under a repeated header the latest is meant.
      let last ← Entries.modify? onKeys .header last path change
      return es.set key (.tables (last :: earlier))
    | _ => none

/-- Add a value under a dotted key.  Its last table must have come about on
    the way to a key, unless it is the table at hand. -/
def Entries.addDotted? (es : Entries) (path : List String) (key : String) (v : Value) :
    Option Entries :=
  es.modify? true .header path fun origin inner =>
    if path.isEmpty || origin = .keyPath then inner.add? key v else none

/-- The entries that a header starts with: those of a table that is only on
    the way to other headers, or none. -/
def Entries.atHeader? (es : Entries) (key : String) : Option Entries :=
  match es.lookup key with
  | none => some []
  | some (.table .headerPath inner) => some inner
  | some _ => none

/-- Add a table under a header.  `fill` adds what follows the header. -/
def Entries.addTable? (es : Entries) (path : List String) (key : String)
    (fill : Entries → Option Entries) : Option Entries :=
  es.modify? false .header path fun _ inner => do
    let start ← inner.atHeader? key
    return inner.set key (.table .header (← fill start))

/-- Add one more table under a repeated header. -/
def Entries.addRepeated? (es : Entries) (path : List String) (key : String)
    (fill : Entries → Option Entries) : Option Entries :=
  es.modify? false .header path fun _ inner => do
    match inner.lookup key with
    | none => return inner.set key (.tables [← fill []])
    | some (.tables items) => return inner.set key (.tables ((← fill []) :: items))
    | some _ => none

end JavaTree.Toml
