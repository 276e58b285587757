import JavaTree.Yaml.Event

/-! # Nodes of YAML

    The events of a document as a tree.  `Composed.ofText` never fails: where
    the text is broken, or refers to an anchor that it has not set, the tree
    ends in a `cut`, and what was read before stays in place.  Whoever
    interprets the tree in order therefore reports the first problem.

    An alias stands for the node whose number it holds.  The number of an
    anchor is the count of different names set before it, so that a node can
    take over the number of an earlier one; the latest node with a number is
    the one that is meant. -/

namespace JavaTree.Yaml

/-! ## Section 1: Types -/

/-- A node, possibly broken off. -/
inductive Node where
  | scalar (tag : Option Tag) (plain : Bool) (text : String)
  | sequence (tag : Option Tag) (items : List Node)
  | mapping (tag : Option Tag) (entries : List (Node × Node))
  /-- A reference to the node with a number. -/
  | alias (number : Nat)
  /-- The text breaks off here. -/
  | cut

/-- The node that stands for a text without any. -/
def Node.absent : Node := .scalar none true ""

/-- A node that aliases can refer to. -/
structure Anchored where
  /-- The number that aliases hold. -/
  number : Nat
  /-- How many anchors were set before. -/
  order : Nat
  node : Node

/-- The first document of a text. -/
structure Composed where
  root : Node
  anchored : List Anchored
  /-- The number of events that make up the tree. -/
  events : Nat
  /-- Whether the text ends after the document. -/
  complete : Bool

/-! ## Section 2: Building the tree -/

/-- A collection that is still open. -/
structure OpenCollection where
  isMapping : Bool
  tag : Option Tag
  /-- The number and the order of its anchor. -/
  anchor : Option (Nat × Nat)
  /-- The nodes met inside so far, newest first. -/
  nodes : List Node := []

/-- Keys and values, which alternate. -/
def pairUp : List Node → List (Node × Node)
  | [] => []
  | [k] => [(k, .cut)]
  | k :: v :: rest => (k, v) :: pairUp rest

/-- The node of a collection. -/
def OpenCollection.toNode (c : OpenCollection) : Node :=
  if c.isMapping then .mapping c.tag (pairUp c.nodes.reverse)
  else .sequence c.tag c.nodes.reverse

/-- The state of building a tree. -/
structure Composer where
  /-- The open collections, innermost first. -/
  collections : List OpenCollection := []
  /-- The topmost node, once it is complete. -/
  root : Option Node := none
  /-- The numbers of the anchor names, the latest first. -/
  names : List (String × Nat) := []
  /-- How many anchors were set. -/
  anchors : Nat := 0
  /-- The complete nodes with anchors. -/
  anchored : List Anchored := []
  events : Nat := 0
  /-- Whether the document has ended. -/
  ended : Bool := false
  /-- Whether the text has ended after the document. -/
  complete : Bool := false
  /-- Whether the text is broken. -/
  broken : Bool := false

namespace Composer

/-- Set an anchor: its number and its order. -/
def setAnchor (c : Composer) : Option String → Composer × Option (Nat × Nat)
  | none => (c, none)
  | some name =>
    let number := c.names.length
    let names := (name, number) :: c.names.filter (·.1 ≠ name)
    ({ c with names, anchors := c.anchors + 1 }, some (number, c.anchors))

/-- Add a complete node. -/
def add (c : Composer) (anchor : Option (Nat × Nat)) (n : Node) : Composer :=
  let anchored :=
    match anchor with
    | some (number, order) => ⟨number, order, n⟩ :: c.anchored
    | none => c.anchored
  match c.collections with
  | [] => { c with anchored, root := some n }
  | top :: rest =>
    { c with anchored, collections := { top with nodes := n :: top.nodes } :: rest }

/-- Open a collection. -/
def openCollection (c : Composer) (isMapping : Bool) (p : Properties) : Composer :=
  let (c, anchor) := c.setAnchor p.anchor
  { c with collections := { isMapping, tag := p.tag, anchor } :: c.collections }

/-- Close the innermost collection. -/
def close (c : Composer) : Composer :=
  match c.collections with
  | [] => c
  | top :: rest => { c with collections := rest }.add top.anchor top.toNode

/-- Take in an event of the tree. -/
def addEvent (c : Composer) (e : Event) : Composer :=
  let c := { c with events := c.events + 1 }
  match e with
  | .alias name =>
    match c.names.lookup name with
    | some number => c.add none (.alias number)
    -- An unknown name breaks the text, and the event does not count.
    | none => { c with broken := true, events := c.events - 1 }
  | .scalar p plain text =>
    let (c, anchor) := c.setAnchor p.anchor
    c.add anchor (.scalar p.tag plain text)
  | .sequenceStart p => c.openCollection false p
  | .mappingStart p => c.openCollection true p
  | _ => c.close

/-- Take in an event.  Nothing counts after the first document but the end
    of the text. -/
def step (c : Composer) (e : Event) : Composer :=
  if c.broken || c.complete then c
  else
    match e with
    | .documentStart => if c.ended then { c with broken := true } else c
    | .documentEnd => { c with ended := true }
    | .streamEnd => { c with complete := true }
    | e => c.addEvent e

/-- The tree, broken off where collections are still open. -/
def finish (c : Composer) : Composed :=
  let whole := c.complete && c.collections.isEmpty
  -- What is open ends where the text breaks off.
  let closed :=
    if whole || c.root.isSome then c
    else c.collections.foldl (fun c _ => c.close) (c.add none .cut)
  { root := closed.root.getD .absent
    anchored := closed.anchored
    events := c.events
    complete := whole }

end Composer

/-- The tree of an event sequence. -/
def Composed.ofEvents (events : List Event) : Composed :=
  (events.foldl Composer.step {}).finish

/-- The tree of a text. -/
def Composed.ofText (text : String) : Composed := ofEvents (eventsOf (tokenize text))

/-- The node an alias stands for: the latest with its number. -/
def Composed.node? (c : Composed) (number : Nat) : Option Node :=
  let latest (best : Option Anchored) (a : Anchored) : Option Anchored :=
    if a.number ≠ number then best
    else
      match best with
      | some b => if b.order < a.order then some a else some b
      | none => some a
  (c.anchored.foldl latest none).map (·.node)

/-! ## Section 3: Completeness -/

namespace Node

mutual

/-- Whether the node is not broken off anywhere. -/
def isWhole : Node → Bool
  | .cut => false
  | .sequence _ items => allWhole items
  | .mapping _ entries => entriesWhole entries
  | _ => true

/-- Whether no item is broken off. -/
def allWhole : List Node → Bool
  | [] => true
  | n :: rest => n.isWhole && allWhole rest

/-- Whether no entry is broken off. -/
def entriesWhole : List (Node × Node) → Bool
  | [] => true
  | (k, v) :: rest => k.isWhole && v.isWhole && entriesWhole rest

end

end Node

end JavaTree.Yaml
