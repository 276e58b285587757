/-! # Tags of YAML

    A tag says how a node is to be read.  Escapes can put any bytes into a
    tag, so that a tag is a run of bytes and need not be a text.  A byte zero
    ends it, whatever follows. -/

namespace JavaTree.Yaml

/-- A tag, or a part of one. -/
structure Tag where
  bytes : List UInt8
  deriving DecidableEq, Repr

namespace Tag

/-! ## Section 1: Making tags -/

/-- The tag that is written with the given bytes: those before a zero. -/
def ofBytes (bytes : List UInt8) : Tag := ⟨bytes.takeWhile (· ≠ 0)⟩

/-- The bytes of characters that take up one byte each. -/
def asciiBytes (cs : List Char) : List UInt8 := cs.map fun c => c.toNat.toUInt8

/-- The tag with the given text, which takes up one byte for each character. -/
def ofText (text : String) : Tag := ofBytes (asciiBytes text.toList)

/-- A part of a tag followed by another. -/
def append (s t : Tag) : Tag := ⟨s.bytes ++ t.bytes⟩

instance : Append Tag := ⟨append⟩

/-- The tag that consists of its mark. -/
def lone : Tag := ofText "!"

/-- What the tags of the common schema start with. -/
def schemaStart : Tag := ofText "tag:yaml.org,2002:"

/-- A tag of the common schema. -/
def schema (name : String) : Tag := schemaStart ++ ofText name

/-! ## Section 2: Kinds of tags -/

/-- Whether the tag has no bytes. -/
def isEmpty (t : Tag) : Bool := t.bytes.isEmpty

/-- Whether the bytes are those of a text. -/
def isText (t : Tag) : Bool := (String.fromUTF8? t.bytes.toByteArray).isSome

/-- Whether the tag belongs to its text and to no schema: it starts with an
    exclamation mark. -/
def isOwn (t : Tag) : Bool := t.bytes.head? = some 0x21

end Tag

end JavaTree.Yaml
