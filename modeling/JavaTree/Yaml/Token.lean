import JavaTree.Yaml.Tag

/-! # Tokens of YAML

    A text is first cut into tokens.  Structure that the text shows by its
    indentation is made explicit: a block is announced by a start token and
    closed by `blockEnd`, and every key by `key`. -/

namespace JavaTree.Yaml

/-- A token. -/
inductive Token where
  /-- The end of the text. -/
  | streamEnd
  /-- The version a document asks for. -/
  | version (major minor : Nat)
  /-- What a tag handle stands for. -/
  | handle (name : String) (expansion : Tag)
  | documentStart
  | documentEnd
  | blockSequenceStart
  | blockMappingStart
  | blockEnd
  | flowSequenceStart
  | flowSequenceEnd
  | flowMappingStart
  | flowMappingEnd
  /-- The dash before an item of a block. -/
  | blockEntry
  /-- The comma between items. -/
  | flowEntry
  | key
  | value
  | alias (name : String)
  | anchor (name : String)
  /-- A tag, given by a handle and what follows it. -/
  | tag (handle : String) (suffix : Tag)
  | scalar (plain : Bool) (text : String)
  deriving DecidableEq, Repr

end JavaTree.Yaml
