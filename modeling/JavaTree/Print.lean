import JavaTree.Print.Renderer
import JavaTree.Walk

/-! # Printing source text

    A tree is printed bottom-up in one walk: when a node is left, the texts
    of its children are taken off a stack and its template puts them
    together.  The unit of indentation is made before the walk, and line ends
    are put in after it. -/

namespace JavaTree

/-! ## Section 1: Layout -/

/-- How source text is laid out. -/
structure Layout where
  /-- Spaces for each level. -/
  indentWidth : Nat := 2
  /-- What ends a line. -/
  lineTerminator : String := "\n"
  deriving DecidableEq, Repr

/-- Drop one carriage return at the end of a line. -/
def Text.dropReturn (line : List Char) : List Char :=
  match line.reverse with
  | '\r' :: rest => rest.reverse
  | _ => line

/-- The lines that some pieces of a text make up.  All but the last were ended
    by a break, with or without a carriage return, and the last is a line only
    if it is not empty. -/
def Text.bareLines : List (List Char) → List (List Char)
  | [] => []
  | [last] => if last = [] then [] else [last]
  | line :: rest => dropReturn line :: bareLines rest

namespace Layout

/-- Replace every mark in a text by the line end. -/
def breakMarks (layout : Layout) (s : String) : String :=
  String.ofList (s.toList.flatMap fun c =>
    if c = lineMark then layout.lineTerminator.toList else [c])

/-- End the lines of a text, and the marked breaks in them. -/
def finish (layout : Layout) (text : String) : String :=
  let lines := (Text.bareLines (Text.pieces '\n' text.toList)).map String.ofList
  layout.breakMarks (layout.lineTerminator.intercalate lines ++ layout.lineTerminator)

end Layout

/-! ## Section 2: Nodes and their texts -/

/-- Whether the last child of a node of this kind is a body that may stand
    without braces. -/
def Kind.endsInBody : Kind → Bool
  | .statement .conditional | .statement .for | .statement .forEach | .statement .while
  | .statement .labeled => true
  | _ => false

namespace Cursor

/-- Whether a statement is an `if` without `else`, or ends in one through a
    chain of bodies without braces.  Such a statement would take an `else`
    that follows it. -/
def endsInOpenIf (n : Cursor) : Bool :=
  if n.kind = .statement .conditional && n.childCount < 3 then true
  else if n.kind.endsInBody then
    match _h : n.children.getLast? with
    | some body => !body.kind.isBlock && body.endsInOpenIf
    | none => false
  else false
termination_by n.rank
decreasing_by exact rank_lt_of_mem_children (List.mem_of_getLast? _h)

variable {τ : Type}

/-- A node together with its source text. -/
def toPart (n : Cursor) (body : τ) : Part τ := ⟨n.kind, n.attributes, n.endsInOpenIf, body⟩

/-- The children of a node together with their source texts. -/
def toParts (n : Cursor) (bodies : List τ) : List (Part τ) := n.children.zipWith toPart bodies

end Cursor

/-! ## Section 3: The printer -/

namespace Printer

/-- Puts the source text of every node it leaves in place of those of the
    node's children, which must be on the stack. -/
def visitor (unit : String) : Visitor RenderFailure (List String) where
  leave n stack :=
    if stack.length < n.childCount then (.error (.panicked .overflow), stack) else
      let (bodies, rest) := popResults n.childCount stack
      match Renderer.node unit n.kind n.attributes (n.toParts bodies) with
      | .ok s => (.ok (), s :: rest)
      | .error e => (.error e, rest)

/-- The source text of a subtree with a unit of indentation, before its lines
    are ended. -/
def text (unit : String) (n : Cursor) : Except RenderFailure String :=
  match (visitor unit).walk n [] with
  | (.ok (), stack) => .ok (stack.head?.getD "")
  | (.error e, _) => .error e

/-- The source text of a subtree under a layout. -/
def print (layout : Layout) (n : Cursor) : Except RenderFailure String := do
  let unit ← Text.repeated layout.indentWidth " "
  return layout.finish (← text unit n)

end Printer

end JavaTree
