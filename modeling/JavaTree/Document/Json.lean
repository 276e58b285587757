import JavaTree.Document.Decoding
import JavaTree.Json.Printer

/-! # Documents as JSON

    A node is an object with the fields `kind`, `attributes` and `children`;
    the last two may be left out, and unknown fields are passed over.  A node
    may also be given as the list of its fields in that order.  Of two
    attributes with one key the later one stays. -/

namespace JavaTree

/-! ## Section 1: Reading -/

/-- Why a value is refused where an object or an array is needed. -/
def Json.misplaced : Json → DecodeError
  | .string (some text) => .misplacedText text
  | _ => .malformed

namespace Document

/-- Read a kind name. -/
def kindOfJson : Json → Except DecodeError Kind
  | .string (some name) =>
    match Kind.ofName? name with
    | some k => .ok k
    | none => .error (.unknownKind name)
  | _ => .error .malformed

/-- Read an attribute value. -/
def attributeOfJson (v : Json) : Except DecodeError AttrValue :=
  match v.toValue? with
  | none => .error .malformed
  | some v =>
    match AttrValue.ofValue? v with
    | some a => .ok a
    | none => .error .notAnAttribute

/-- Read attributes onto those already there. -/
def attributesOfMembers (found : Attributes) :
    List (Option String × Json) → Except DecodeError Attributes
  | [] => .ok found
  | (none, _) :: _ => .error .malformed
  | (some key, v) :: rest => do
    let a ← attributeOfJson v
    attributesOfMembers (found.insert key a) rest

/-- Read an attribute map. -/
def attributesOfJson : Json → Except DecodeError Attributes
  | .object members => attributesOfMembers .empty members
  | v => .error v.misplaced

mutual

/-- Read a node. -/
def ofJson : Json → Except DecodeError Document
  | .object members => do
    let fields ← fieldsOfMembers {} members
    fields.toDocument
  | .array [k] => do
    let k ← kindOfJson k
    return .node k .empty []
  | .array [k, a] => do
    let k ← kindOfJson k
    let a ← attributesOfJson a
    return .node k a []
  | .array (k :: a :: cs :: rest) => do
    let k ← kindOfJson k
    let a ← attributesOfJson a
    let cs ← childrenOfJson cs
    if rest.isEmpty then return .node k a cs else .error .malformed
  | v => .error v.misplaced

/-- Read the fields of a node, in order, onto those already met. -/
def fieldsOfMembers (found : Fields) :
    List (Option String × Json) → Except DecodeError Fields
  | [] => .ok found
  | (none, _) :: _ => .error .malformed
  | (some key, v) :: rest =>
    match key with
    | "kind" => do
      if found.kind.isSome then .error (.duplicateField "kind")
      let k ← kindOfJson v
      fieldsOfMembers { found with kind := some k } rest
    | "attributes" => do
      if found.attributes.isSome then .error (.duplicateField "attributes")
      let a ← attributesOfJson v
      fieldsOfMembers { found with attributes := some a } rest
    | "children" => do
      if found.children.isSome then .error (.duplicateField "children")
      let cs ← childrenOfJson v
      fieldsOfMembers { found with children := some cs } rest
    | _ => if v.isWhole then fieldsOfMembers found rest else .error .malformed

/-- Read a list of nodes. -/
def childrenOfJson : Json → Except DecodeError (List Document)
  | .array items => ofItems items
  | v => .error v.misplaced

/-- Read the nodes of a list, in order. -/
def ofItems : List Json → Except DecodeError (List Document)
  | [] => .ok []
  | v :: rest => do
    let d ← ofJson v
    let ds ← ofItems rest
    return d :: ds

end

/-- Read a document from a JSON text. -/
def decodeJson (text : String) : Except DecodeError Document := do
  let parsed := Json.parse text
  let d ← ofJson parsed.root
  if parsed.trailing then .error .malformed else return d

/-! ## Section 2: Writing -/

/-- A natural number as a JSON value. -/
def jsonOfNat (n : Nat) : Json := .number (.integer n)

end Document

/-- A position as a JSON value. -/
def Position.toJson (p : Position) : Json :=
  .object [(some "line", Document.jsonOfNat p.line.toNat),
    (some "column", Document.jsonOfNat p.column.toNat)]

/-- A source range as a JSON value. -/
def Span.toJson (s : Span) : Json :=
  .object [(some "begin", s.start.toJson), (some "end", s.stop.toJson)]

/-- An attribute value as a JSON value. -/
def AttrValue.toJson : AttrValue → Json
  | .flag b => .bool b
  | .int i => .number (.integer i.toInt)
  | .span s => s.toJson
  | .text s => .string (some s)

/-- An attribute map as a JSON value. -/
def Attributes.toJson (a : Attributes) : Json :=
  .object (a.entries.map fun (key, v) => (some key, v.toJson))

namespace Document

mutual

/-- A document as a JSON value. -/
def toJson : Document → Json
  | .node k a cs =>
    .object [(some "kind", .string (some k.name)), (some "attributes", a.toJson),
      (some "children", .array (toJsonAll cs))]

/-- All documents of a list as JSON values. -/
def toJsonAll : List Document → List Json
  | [] => []
  | d :: rest => d.toJson :: toJsonAll rest

end

/-- Write a document as a JSON text. -/
def encodeJson (d : Document) : String := d.toJson.pretty

end Document

end JavaTree
