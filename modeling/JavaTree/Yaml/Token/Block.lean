import JavaTree.Yaml.Input
import JavaTree.Text.Decimal

/-! # Block scalars

    After `|` or `>` and the rest of that line, a scalar takes all lines that
    are indented far enough.  The indentation is given in the header or taken
    from the first line.  In a folded scalar a single line break between two
    lines that do not start with a blank becomes a space.  The header says
    how many of the last line breaks stay. -/

namespace JavaTree.Yaml

/-! ## Section 1: The header -/

/-- What becomes of the line breaks at the end. -/
inductive Chomping where
  /-- All are dropped. -/
  | strip
  /-- One stays. -/
  | clip
  /-- All stay. -/
  | keep
  deriving DecidableEq, Repr

/-- What the header of a block scalar says. -/
structure BlockHeader where
  chomping : Chomping := .clip
  /-- By how many columns the lines are indented, if given. -/
  increment : Option Nat := none

/-- Read what follows the first character of a block scalar. -/
def BlockHeader.read? (i : Input) : Option (BlockHeader × Input) :=
  let chomping (i : Input) : Chomping × Input :=
    match i.rest.head? with
    | some '+' => (.keep, i.advance)
    | some '-' => (.strip, i.advance)
    | _ => (.clip, i)
  let (first, afterFirst) := chomping i
  match afterFirst.rest.head? with
  | some c =>
    if !Decimal.isDigit c then some (⟨first, none⟩, afterFirst)
    else if c = '0' then none
    else
      let increment := some (Decimal.digitValue c)
      if first = .clip then
        let (second, afterSecond) := chomping afterFirst.advance
        some (⟨second, increment⟩, afterSecond)
      else some (⟨first, increment⟩, afterFirst.advance)
  | none => some (⟨first, none⟩, afterFirst)

/-! ## Section 2: The lines -/

/-- A block scalar that is being read. -/
structure BlockScalar where
  /-- Whether lines are folded. -/
  folding : Bool
  /-- The least indentation that the surrounding block allows. -/
  least : Nat
  /-- The indentation of the lines, once it is known. -/
  indent : Option Nat
  /-- The greatest indentation met so far. -/
  widest : Nat := 0
  /-- The text read so far, newest first. -/
  text : List Char := []
  /-- The line break after the last line. -/
  lineEnd : Option Char := none
  /-- The line breaks after that one, newest first. -/
  breaks : List Char := []
  /-- Whether the last line started with a blank. -/
  afterBlank : Bool := false

namespace BlockScalar

/-- The indentation of the lines, given that a line starts in a column. -/
def fixedIndent (b : BlockScalar) (column : Nat) : Nat :=
  b.indent.getD (max (max b.widest column) b.least)

/-- Whether a column is still within the indentation. -/
def isWithin (b : BlockScalar) (column : Nat) : Bool :=
  match b.indent with
  | some indent => column < indent
  | none => true

/-- Take in the line breaks before a line, and its first character. -/
def beginLine (b : BlockScalar) (c : Char) : BlockScalar :=
  -- A break stays if one of the lines around it starts with a blank.
  let folds := b.folding && b.lineEnd = some '\n' && !b.afterBlank && !isBlank c
  let lineEnd :=
    if folds then if b.breaks.isEmpty then [' '] else [] else b.lineEnd.toList
  { b with
    text := c :: (b.breaks ++ (lineEnd ++ b.text))
    lineEnd := none
    breaks := []
    afterBlank := isBlank c }

/-- The text, with as many line breaks at its end as the chomping leaves. -/
def finish (b : BlockScalar) (chomping : Chomping) : String :=
  let lineEnd := if chomping = .strip then [] else b.lineEnd.toList
  let breaks := if chomping = .keep then b.breaks else []
  String.ofList (breaks ++ (lineEnd ++ b.text)).reverse

mutual

/-- Read on at the start of a line.  Fails at a tab in the indentation. -/
def readIndent : List Char → Mark → BlockScalar → Option (BlockScalar × Input)
  | [], m, b => some (b, ⟨[], m⟩)
  | c :: rest, m, b =>
    if c = ' ' && b.isWithin m.column then readIndent rest (m.after c) b
    else if c = '\t' && b.isWithin m.column then none
    else if isBreak c then
      readIndent rest (m.after c)
        { b with widest := max b.widest m.column, breaks := c :: b.breaks }
    else
      -- The first line with text fixes the indentation; a line further left ends the scalar.
      let indent := b.fixedIndent m.column
      if m.column = indent then
        readLine rest (m.after c) ({ b with indent := some indent }.beginLine c)
      else some (b, ⟨c :: rest, m⟩)

/-- Read on within a line. -/
def readLine : List Char → Mark → BlockScalar → Option (BlockScalar × Input)
  | [], m, b => some (b, ⟨[], m⟩)
  | c :: rest, m, b =>
    if isBreak c then readIndent rest (m.after c) { b with lineEnd := some c }
    else readLine rest (m.after c) { b with text := c :: b.text }

end

end BlockScalar

/-- Read a block scalar after its first character.  `parent` is the column of
    the surrounding block, if there is one. -/
def readBlock? (folding : Bool) (parent : Option Nat) (i : Input) : Option (String × Input) := do
  let (header, i) ← BlockHeader.read? i
  let i ← i.nextLine?
  let least := max 1 ((parent.map (· + 1)).getD 0)
  let indent := header.increment.map fun n => (parent.getD 0) + n
  let (b, i) ← BlockScalar.readIndent i.rest i.mark { folding, least, indent }
  return (b.finish header.chomping, i)

end JavaTree.Yaml
