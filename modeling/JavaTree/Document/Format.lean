import JavaTree.Document.Json
import JavaTree.Document.Yaml.Printer
import JavaTree.Document.Yaml.Reader
import JavaTree.Path

/-! # Document formats

    The two text formats of a document, their names and the file name
    extensions that select them. -/

namespace JavaTree

/-- A text format for documents. -/
inductive Format where
  | yaml
  | json
  deriving DecidableEq, Repr

namespace Format

instance : Inhabited Format := ⟨.yaml⟩

/-- The format a user names.  Case does not matter; no letter outside ASCII
    has one of the letters of these names as its lower case. -/
def ofName? (name : String) : Option Format :=
  match String.ofList (name.toList.map Char.toLower) with
  | "yaml" | "yml" => some .yaml
  | "json" => some .json
  | _ => none

/-- The format that a file name extension stands for. -/
def ofPath? (path : String) : Option Format := (Path.extension? path).bind ofName?

/-- The extension, and the name, of the format. -/
def extension : Format → String
  | .yaml => "yaml"
  | .json => "json"

/-- The name of the format in messages. -/
def title : Format → String
  | .yaml => "YAML"
  | .json => "JSON"

end Format

namespace Document

/-- Read a document from a text of the given format. -/
def decode : Format → String → Except DecodeError Document
  | .yaml => decodeYaml
  | .json => decodeJson

/-- Write a document as a text of the given format. -/
def encode (f : Format) (d : Document) : Except EncodeError String :=
  match f with
  | .yaml => d.encodeYaml
  | .json => .ok d.encodeJson

end Document

end JavaTree
