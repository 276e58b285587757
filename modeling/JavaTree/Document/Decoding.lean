import JavaTree.Document

/-! # Reading documents

    What the readers of both text formats share.  A node is given by its
    fields, in any order, and a reader collects them in `Document.Fields` as
    it meets them.  It checks them as it does so, and the cause of a failure
    is always the first problem of the text.

    Most faults of form have no wording of their own.  A report of a
    misplaced text quotes it, and so has the wording that the text holds, if
    it holds one. -/

namespace JavaTree

/-! ## Section 1: Quoted texts -/

namespace Text

/-- How a character is written inside quotes. -/
def quotedChar (c : Char) : List Char :=
  match c with
  | '"' => ['\\', '"']
  | '\\' => ['\\', '\\']
  | '\n' => ['\\', 'n']
  | '\r' => ['\\', 'r']
  | '\t' => ['\\', 't']
  | '\x00' => ['\\', '0']
  | c =>
    if c.toNat < 0x20 || c.toNat = 0x7F then
      ['\\', 'u', '\x7b'] ++ Nat.toDigits 16 c.toNat ++ ['\x7d']
    else [c]

/-- A text in quotes. -/
def quoted (cs : List Char) : List Char := '"' :: (cs.flatMap quotedChar ++ ['"'])

end Text

/-! ## Section 2: Why a text is no document -/

/-- Why a text could not be read as a document. -/
inductive DecodeError where
  /-- The named node kind does not exist. -/
  | unknownKind (name : String)
  /-- A node lacks the field. -/
  | missingField (name : String)
  /-- A node gives the field twice. -/
  | duplicateField (name : String)
  /-- An attribute holds something that is no attribute value. -/
  | notAnAttribute
  /-- A text stands where something else is needed. -/
  | misplacedText (text : String)
  /-- The text is not well-formed, or of the wrong shape. -/
  | malformed
  deriving DecidableEq, Repr

namespace DecodeError

/-! ## Section 3: Wordings -/

/-- How the wording begins for a kind that does not exist. -/
def kindOpening : String := "unknown node kind `"

/-- How the wording begins for a field that is lacking. -/
def missingOpening : String := "missing field `"

/-- How the wording begins for a field that is given twice. -/
def duplicateOpening : String := "duplicate field `"

/-- The wording for something that is no attribute value. -/
def noAttribute : String := "data did not match any variant of untagged enum AttrValue"

/-! ## Section 4: Wordings inside a text -/

/-- A text from the first place on where it goes on with `opening`. -/
def startingWith? (opening : List Char) : List Char → Option (List Char)
  | [] => none
  | c :: rest =>
    if (c :: rest).take opening.length = opening then some (c :: rest)
    else startingWith? opening rest

/-- A text up to the last closing mark of a name. -/
def upToMark (cs : List Char) : List Char := (cs.reverse.dropWhile (· ≠ '\x60')).reverse

/-- The wording that a text holds.  Those that end with a name come first. -/
def wordingIn? (cs : List Char) : Option String :=
  let named := [kindOpening, missingOpening, duplicateOpening].findSome? fun opening =>
    (startingWith? opening.toList cs).map fun found => String.ofList (upToMark found)
  match named with
  | some wording => some wording
  | none => (startingWith? noAttribute.toList cs).map fun _ => noAttribute

/-! ## Section 5: The wording of a cause -/

/-- The wording of a cause, if it has one of its own. -/
def detail? : DecodeError → Option String
  | .unknownKind name => some (kindOpening ++ name ++ "`")
  | .missingField name => some (missingOpening ++ name ++ "`")
  | .duplicateField name => some (duplicateOpening ++ name ++ "`")
  | .notAnAttribute => some noAttribute
  | .misplacedText text => wordingIn? (Text.quoted text.toList)
  | .malformed => none

/-- The wording of a cause. -/
def message (e : DecodeError) : String := e.detail?.getD "<parse error>"

end DecodeError

/-! ## Section 5: Fields -/

namespace Document

/-- The fields of a node that were met so far. -/
structure Fields where
  /-- The field `kind`. -/
  kind : Option Kind := none
  /-- The field `attributes`. -/
  attributes : Option Attributes := none
  /-- The field `children`. -/
  children : Option (List Document) := none

/-- The node with the given fields, which must include the kind. -/
def Fields.toDocument (f : Fields) : Except DecodeError Document :=
  match f.kind with
  | none => .error (.missingField "kind")
  | some k => .ok (.node k (f.attributes.getD .empty) (f.children.getD []))

end Document

end JavaTree
