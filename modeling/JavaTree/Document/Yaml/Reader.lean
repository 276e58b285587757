import JavaTree.Document.Decoding
import JavaTree.Value
import JavaTree.Yaml.Node
import JavaTree.Yaml.Scalar

/-! # Documents from YAML text

    A node is a mapping with the fields `kind`, `attributes` and `children`;
    the last two may be left out, and unknown fields are passed over.  An
    empty scalar stands for an empty mapping or list.  Of two attributes with
    one key the later one stays.

    Collections nest at most `maxNesting` deep.  An alias is read as the node
    it stands for, and a text may follow at most `jumpsPerEvent` aliases for
    each event it has, so that aliases of aliases cannot make a small text
    huge. -/

namespace JavaTree

namespace Yaml

/-! ## Section 1: Following aliases -/

/-- The greatest number of collections around a value. -/
def maxNesting : Nat := 128

/-- How many aliases may be followed for each event of a text. -/
def jumpsPerEvent : Nat := 100

/-- Reading, with the number of aliases that may still be followed. -/
abbrev Read := StateT Nat (Except DecodeError)

/-- The node itself, or the one it stands for. -/
def Composed.follow (c : Composed) : Node → Read Node
  | .alias number => fun jumps =>
    match jumps, c.node? number with
    | jumps + 1, some n => .ok (n, jumps)
    | _, _ => .error .malformed
  | n => pure n

/-- Whether the node is a scalar without quotes and without text. -/
def Node.isBlank : Node → Bool
  | .scalar _ plain text => plain && text = ""
  | _ => false

/-! ## Section 2: Scalars -/

/-- The value of an integer, or of what must be one. -/
def integerValue? (text : String) : Option Value :=
  match Resolution.integer? text.toList with
  | some (.int i) => some (.int i)
  | some .minusZero => some .minusZero
  | _ => none

/-- The value of a plain scalar; integers of more than 64 bits have none. -/
def plainValue? (text : String) : Option Value :=
  match Resolution.ofPlain text with
  | .null => some .null
  | .flag b => some (.flag b)
  | .int i => some (.int i)
  | .minusZero => some .minusZero
  | .real => some .real
  | .text => some (.text text)
  | .wide => none

/-- Whether a value may carry a tag.  A tag of the document's own names a
    type that no value here has; one that is no text names nothing. -/
def allowsTag : Option Tag → Bool
  | some tag => !(tag.isOwn && tag.isText)
  | none => true

/-- The value of a scalar that no tag tells how to read. -/
def untaggedValue? (plain : Bool) (text : String) : Option Value :=
  if plain then plainValue? text else some (.text text)

/-- The value of a scalar.  A tag of the common schema decides how the text
    is read, and with any other tag it is a text. -/
def scalarValue? (tag : Option Tag) (plain : Bool) (text : String) : Option Value :=
  if !allowsTag tag then none
  else
    match tag with
    | none => untaggedValue? plain text
    | some tag =>
      if tag.isOwn then untaggedValue? plain text
      else if tag = .schema "bool" then
        match Resolution.ofPlain text with
        | .flag b => some (.flag b)
        | _ => none
      else if tag = .schema "int" then integerValue? text
      else if tag = .schema "float" then
        if Resolution.isReal text.toList then some .real else none
      else if tag = .schema "null" then
        if ["~", "null", "Null", "NULL"].contains text then some .null else none
      else some (.text text)

/-- Why a scalar has no value.  A tag is refused for itself. -/
def scalarFault (tag : Option Tag) (text : String) : DecodeError :=
  if allowsTag tag then .misplacedText text else .malformed

/-- Why a node is refused where a mapping or a sequence is needed.  Tags of
    the document's own do not count here. -/
def Node.misplaced : Node → DecodeError
  | .scalar tag plain text =>
    match scalarValue? (tag.filter (!·.isOwn)) plain text with
    | some (.text text) => .misplacedText text
    | some _ => .malformed
    | none => .misplacedText text
  | _ => .malformed

/-! ## Section 3: Values -/

/-- Read the value of a scalar. -/
def readScalar (tag : Option Tag) (plain : Bool) (text : String) : Read Value :=
  match scalarValue? tag plain text with
  | some v => return v
  | none => throw (scalarFault tag text)

/-- Read any value, given how many collections may still be entered. -/
def Composed.value (c : Composed) : (nesting : Nat) → Node → Read Value
  | 0, n => do
    match ← c.follow n with
    | .scalar tag plain text => readScalar tag plain text
    | _ => throw .malformed
  | nesting + 1, n => do
    match ← c.follow n with
    | .scalar tag plain text => readScalar tag plain text
    | .sequence tag items =>
      if !allowsTag tag then throw .malformed
      return .list (← items.mapM (c.value nesting))
    | .mapping tag entries =>
      if !allowsTag tag then throw .malformed
      return .map (← entries.mapM fun (k, v) => return (← c.value nesting k, ← c.value nesting v))
    | _ => throw .malformed

/-- Read the text of a scalar, however it is written. -/
def Composed.text (c : Composed) (n : Node) : Read String := do
  match ← c.follow n with
  | .scalar _ _ text => return text
  | _ => throw .malformed

/-- The entries of a mapping, and how many collections may be entered inside
    it. -/
def Composed.entries (c : Composed) (nesting : Nat) (n : Node) :
    Read (List (Node × Node) × Nat) := do
  match nesting, ← c.follow n with
  | nesting + 1, .mapping _ entries => return (entries, nesting)
  | nesting, n => if n.isBlank then return ([], nesting) else throw n.misplaced

/-! ## Section 4: Nodes of a document -/

/-- Read a kind name. -/
def Composed.kind (c : Composed) (n : Node) : Read Kind := do
  let name ← c.text n
  match Kind.ofName? name with
  | some k => return k
  | none => throw (.unknownKind name)

/-- Read an attribute value. -/
def Composed.attribute (c : Composed) (nesting : Nat) (n : Node) : Read AttrValue := do
  match AttrValue.ofValue? (← c.value nesting n) with
  | some a => return a
  | none => throw .notAnAttribute

/-- Read an attribute map. -/
def Composed.attributes (c : Composed) (nesting : Nat) (n : Node) : Read Attributes := do
  let (entries, nesting) ← c.entries nesting n
  entries.foldlM (fun found (k, v) => do
    let key ← c.text k
    return found.insert key (← c.attribute nesting v)) .empty

/-- Read an entry of a node onto the fields already met.  Children are read
    by `children`. -/
def Composed.field (c : Composed) (nesting : Nat) (children : Node → Read (List Document))
    (found : Document.Fields) (entry : Node × Node) : Read Document.Fields := do
  match ← c.text entry.1 with
  | "kind" =>
    if found.kind.isSome then throw (.duplicateField "kind")
    return { found with kind := some (← c.kind entry.2) }
  | "attributes" =>
    if found.attributes.isSome then throw (.duplicateField "attributes")
    return { found with attributes := some (← c.attributes nesting entry.2) }
  | "children" =>
    if found.children.isSome then throw (.duplicateField "children")
    return { found with children := some (← children entry.2) }
  -- An unknown field is passed over, but the text must not break off in it.
  | _ => if entry.2.isWhole then return found else throw .malformed

/-- Why something that is no mapping, or one too deep, is not a node. -/
def Node.notDocument (n : Node) : DecodeError :=
  if n.isBlank then .missingField "kind" else n.misplaced

/-- Something that is no sequence, or one too deep, read as a list of nodes. -/
def Node.noDocuments (n : Node) : Read (List Document) :=
  if n.isBlank then return [] else throw n.misplaced

mutual

/-- Read a node, given how many collections may still be entered. -/
def Composed.document (c : Composed) : (nesting : Nat) → Node → Read Document
  | 0, n => do throw (← c.follow n).notDocument
  | nesting + 1, n => do
    match ← c.follow n with
    | .mapping _ entries =>
      let fields ← entries.foldlM (c.field nesting (c.documents nesting)) {}
      fields.toDocument
    | n => throw n.notDocument

/-- Read a list of nodes. -/
def Composed.documents (c : Composed) : (nesting : Nat) → Node → Read (List Document)
  | 0, n => do (← c.follow n).noDocuments
  | nesting + 1, n => do
    match ← c.follow n with
    | .sequence _ items => items.mapM (c.document nesting)
    | n => n.noDocuments

end

end Yaml

/-- Read a document from a YAML text. -/
def Document.decodeYaml (text : String) : Except DecodeError Document := do
  let c := Yaml.Composed.ofText text
  let (d, _) ← (c.document Yaml.maxNesting c.root).run (Yaml.jumpsPerEvent * c.events)
  if c.complete then return d else .error .malformed

end JavaTree
