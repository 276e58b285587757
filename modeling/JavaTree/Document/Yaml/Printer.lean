import JavaTree.Document
import JavaTree.Yaml.Style

/-! # Documents as YAML text

    Mappings are written in blocks, two columns to the right of what holds
    them; the items of a list stand in the column of the list's key.  Empty
    mappings and lists are `{}` and `[]`.

    The reader nests at most 128 collections, so a document of more than
    `maxYamlDepth` levels is refused: every level costs a mapping and a list,
    and a source range two more. -/

namespace JavaTree

/-- The greatest number of levels of a document that is written as YAML. -/
def Document.maxYamlDepth : Nat := 60

/-- Why a document is not written as text. -/
inductive EncodeError where
  | tooDeep (depth : Nat)
  deriving DecidableEq, Repr

/-- The wording of a refusal. -/
def EncodeError.message : EncodeError → String
  | .tooDeep depth =>
    "tree is " ++ toString depth ++ " levels deep, YAML documents hold at most "
      ++ toString Document.maxYamlDepth ++ "; use JSON"

namespace Yaml

/-- A mapping of one key to a number. -/
def numberEntry (key : String) (n : UInt32) : String := key ++ ": " ++ toString n.toNat ++ "\n"

/-- A position as a mapping whose keys stand in a column. -/
def writePosition (column : Nat) (p : Position) : String :=
  spaces column ++ numberEntry "line" p.line ++ spaces column ++ numberEntry "column" p.column

/-- A source range as a mapping whose keys stand in a column.  The first key
    is written without its indentation. -/
def writeSpan (column : Nat) (s : Span) : String :=
  "begin:\n" ++ writePosition (column + 2) s.start
    ++ spaces column ++ "end:\n" ++ writePosition (column + 2) s.stop

/-- A scalar attribute value, or none for a source range. -/
def writeScalar? (column : Nat) : AttrValue → Option String
  | .flag b => some (if b then "true" else "false")
  | .int i => some (toString i.toInt)
  | .text s => some (writeText column s)
  | .span _ => none

/-- An attribute whose key stands in a column.  A key that does not fit on
    one line is set off by a question mark, and its value by a colon. -/
def writeAttribute (column : Nat) (key : String) (v : AttrValue) : String :=
  let value (inline : Bool) : String :=
    match v with
    | .span s =>
      if inline then " " ++ writeSpan (column + 2) s
      else "\n" ++ spaces (column + 2) ++ writeSpan (column + 2) s
    | v => endLine (" " ++ (writeScalar? (column + 2) v).getD "")
  if isSimpleKey key then
    spaces column ++ writeText (column + 2) key ++ ":" ++ value false
  else
    spaces column ++ endLine ("? " ++ writeText (column + 2) key)
      ++ spaces column ++ ":" ++ value true

/-- The attributes of a node, after their field name. -/
def writeAttributes (column : Nat) (a : Attributes) : String :=
  match a.entries with
  | [] => " \x7b\x7d\n"
  | entries => "\n" ++ String.join (entries.map fun (k, v) => writeAttribute (column + 2) k v)

mutual

/-- A node whose keys stand in a column; the first key is written without
    its indentation. -/
def writeNode (column : Nat) : Document → String
  | .node kind a children =>
    "kind: " ++ kind.name ++ "\n"
      ++ spaces column ++ "attributes:" ++ writeAttributes column a
      ++ spaces column ++ "children:" ++
        match children with
        | [] => " []\n"
        | d :: rest => "\n" ++ writeItems column (d :: rest)

/-- The nodes of a list whose dashes stand in a column. -/
def writeItems (column : Nat) : List Document → String
  | [] => ""
  | d :: rest => spaces column ++ "- " ++ writeNode (column + 2) d ++ writeItems column rest

end

end Yaml

/-- Write a document as a YAML text. -/
def Document.encodeYaml (d : Document) : Except EncodeError String :=
  if maxYamlDepth < d.depth then .error (.tooDeep d.depth) else .ok (Yaml.writeNode 0 d)

end JavaTree
