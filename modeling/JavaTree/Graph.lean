import JavaTree.Family
import JavaTree.Text.Blank
import JavaTree.Text.Pieces
import JavaTree.Walk

/-! # Graphs

    The tree as a graph description in the DOT language: one statement for
    each node and one for each link to a parent, both in the order in which
    the walk enters the nodes.  Nodes are numbered in that order, from zero. -/

namespace JavaTree

/-! ## Section 1: Labels -/

namespace Label

/-- The greatest number of characters of a descriptor. -/
def maxLength : Nat := 40

/-- Shorten a text to at most `maxLength` characters and three dots. -/
def shorten (s : String) : String :=
  if s.toList.length ≤ maxLength then s
  else String.ofList (s.toList.take maxLength) ++ "..."

/-- The first line of a text that is not blank, trimmed. -/
def firstLine? (s : String) : Option String :=
  (((Text.pieces '\n' s.toList).map Text.trim).find? (!·.isEmpty)).map String.ofList

/-- The most telling attribute: name, operator, value or type, or else the
    first line of a comment. -/
def descriptor? (a : Attributes) : Option String :=
  match [Key.name, Key.operator, Key.value, Key.type].findSome? a.nonempty? with
  | some s => some s
  | none => (a.text? Key.content).bind firstLine?

/-- The characters that stand for `c` inside a quoted label. -/
def escapeChar (c : Char) : List Char :=
  match c with
  | '\\' => ['\\', '\\']
  | '"' => ['\\', '"']
  | '\n' => ['\\', 'n']
  | c => [c]

/-- A text as it stands between the quotes of a label. -/
def escape (s : String) : String := String.ofList (s.toList.flatMap escapeChar)

end Label

/-- `Kind`, or `Kind: descriptor`. -/
def Cursor.label (n : Cursor) : String :=
  match Label.descriptor? n.attributes with
  | some d => n.kind.name ++ ": " ++ Label.shorten d
  | none => n.kind.name

/-! ## Section 2: Statements -/

namespace Graph

/-- Shape and fill colour of the nodes of a family. -/
def style : Family → String × String
  | .compilationUnit => ("folder", "#a6e3a1")
  | .package | .imports => ("note", "#f5e0dc")
  | .typeDecl => ("box", "#89b4fa")
  | .member => ("box", "#b4befe")
  | .parameter | .variableDeclarator | .typeParameter | .catchClause | .switchEntry =>
      ("ellipse", "#94e2d5")
  | .statement => ("diamond", "#f9e2af")
  | .expression => ("ellipse", "#cba6f7")
  | .comment => ("note", "#6c7086")

/-- The name of a numbered node. -/
def nodeName (id : Nat) : String := "n" ++ toString id

/-- The statement that declares a node. -/
def nodeLine (styled : Bool) (id : Nat) (n : Cursor) : String :=
  let declared := "    " ++ nodeName id ++ " [label=\"" ++ Label.escape n.label ++ "\""
  if styled then
    let (shape, fill) := style n.kind.family
    let tooltip :=
      match n.range? with
      | some span => ", tooltip=\"" ++ span.display ++ "\""
      | none => ""
    declared ++ ", shape=" ++ shape ++ ", style=\"filled\", fillcolor=\"" ++ fill ++ "\"" ++ tooltip
      ++ "];"
  else declared ++ "];"

/-- The statement that links a node to its parent. -/
def edgeLine (parent id : Nat) : String :=
  "    " ++ nodeName parent ++ " -> " ++ nodeName id ++ ";"

/-- The lines before the first node. -/
def header (styled : Bool) : List String :=
  if styled then
    ["digraph AST \x7b",
     "    rankdir=TB;",
     "    node [fontname=\"Helvetica\", fontsize=11];",
     "    edge [fontname=\"Helvetica\", fontsize=9];",
     ""]
  else ["digraph AST \x7b"]

/-! ## Section 3: Drawing -/

/-- A graph being drawn. -/
structure Drawing where
  /-- The number of the next node. -/
  nextId : Nat
  /-- The numbers of the entered nodes that are not left yet, innermost first. -/
  opened : List Nat
  /-- The statements so far, last one first. -/
  lines : List String

/-- Declares every node it enters and links it to the innermost open node. -/
def visitor (styled : Bool) : Visitor Empty Drawing :=
  .pure
    (fun n d =>
      let declared := nodeLine styled d.nextId n :: d.lines
      { nextId := d.nextId + 1
        opened := d.nextId :: d.opened
        lines :=
          match d.opened with
          | parent :: _ => edgeLine parent d.nextId :: declared
          | [] => declared })
    (fun _ d => { d with opened := d.opened.tail })

/-- The statements of a subtree, in order. -/
def statements (styled : Bool) (n : Cursor) : List String :=
  ((visitor styled).finalState n ⟨0, [], []⟩).lines.reverse

/-- The lines of the graph description of a subtree. -/
def lines (styled : Bool) (n : Cursor) : List String :=
  header styled ++ statements styled n ++ ["\x7d"]

/-- The graph description of a subtree. -/
def render (styled : Bool) (n : Cursor) : String :=
  String.join ((lines styled n).map (· ++ "\n"))

end Graph

end JavaTree
