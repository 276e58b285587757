import JavaTree.Yaml.Token.Lexer

/-! # Events of YAML

    The tokens of a text are read as a sequence of events: collections open
    and close, scalars and aliases stand between.  Nodes that the text leaves
    out become empty scalars.

    The reader keeps a stack of what is expected after the current node, so
    each step looks at the next few tokens only. -/

namespace JavaTree.Yaml

/-! ## Section 1: Types -/

/-- What is attached to a node. -/
structure Properties where
  /-- The name by which aliases refer to it. -/
  anchor : Option String := none
  /-- Its tag, in full. -/
  tag : Option Tag := none
  deriving DecidableEq, Repr

/-- An event. -/
inductive Event where
  | documentStart
  | documentEnd
  | streamEnd
  | alias (name : String)
  | scalar (properties : Properties) (plain : Bool) (text : String)
  | sequenceStart (properties : Properties)
  | sequenceEnd
  | mappingStart (properties : Properties)
  | mappingEnd
  deriving DecidableEq, Repr

/-- What a reader expects. -/
inductive Expected where
  /-- A document; only the first needs no mark at its start. -/
  | document (first : Bool)
  /-- The topmost node of a document. -/
  | documentNode (marked : Bool)
  | documentEnd
  /-- An item of a sequence in the column of its key. -/
  | indentlessItem
  | blockItem
  | blockKey
  | blockValue
  /-- An item of a sequence in brackets. -/
  | flowItem (first : Bool)
  /-- The key of a mapping of one pair without brackets of its own. -/
  | pairKey
  | pairValue
  | pairEnd
  /-- A key of a mapping in brackets. -/
  | flowKey (first : Bool)
  /-- The value of a mapping in brackets, possibly left out. -/
  | flowValue (omitted : Bool)
  deriving DecidableEq, Repr

/-- The state of the reader. -/
structure EventReader where
  tokens : List Token
  expected : Expected := .document true
  /-- What is expected after the current node, innermost first. -/
  pending : List Expected := []
  /-- What the declared tag handles stand for. -/
  handles : List (String × Tag) := []

namespace EventReader

/-! ## Section 2: Nodes -/

/-- What is emitted, and how to go on. -/
abbrev Step := Option (Event × EventReader)

/-- Go on with what is expected after the current node. -/
def leave (r : EventReader) : EventReader :=
  match r.pending with
  | [] => r
  | next :: pending => { r with expected := next, pending }

/-- Expect something else. -/
def goto (r : EventReader) (tokens : List Token) (next : Expected) : EventReader :=
  { r with tokens, expected := next }

/-- Emit an empty scalar. -/
def empty (r : EventReader) (tokens : List Token) (next : Expected) : Step :=
  some (.scalar {} true "", r.goto tokens next)

/-- What the handles stand for that no document needs to declare. -/
def commonHandles : List (String × Tag) := [("!", .lone), ("!!", .schemaStart)]

/-- The full tag.  Fails if the handle is not declared. -/
def fullTag? (r : EventReader) (handle : String) (suffix : Tag) : Option Tag :=
  if handle = "" then some suffix
  else ((r.handles ++ commonHandles).lookup handle).map (· ++ suffix)

/-- Read the anchor and the tag before a node. -/
def properties? (r : EventReader) : Option (Properties × List Token) :=
  match r.tokens with
  | .anchor a :: .tag h s :: rest => do return (⟨some a, some (← r.fullTag? h s)⟩, rest)
  | .tag h s :: .anchor a :: rest => do return (⟨some a, some (← r.fullTag? h s)⟩, rest)
  | .anchor a :: rest => some (⟨some a, none⟩, rest)
  | .tag h s :: rest => do return (⟨none, some (← r.fullTag? h s)⟩, rest)
  | tokens => some ({}, tokens)

/-- Read a node.  `block` allows block collections, and `indentless` a
    sequence whose dashes stand in the column of its key. -/
def node (block indentless : Bool) (r : EventReader) : Step :=
  match r.tokens with
  | .alias name :: rest => some (.alias name, { r.leave with tokens := rest })
  | _ => do
    let (p, tokens) ← r.properties?
    match tokens with
    | [] => none
    | .scalar plain text :: rest =>
      some (.scalar p plain text, { r.leave with tokens := rest })
    | .flowSequenceStart :: rest => some (.sequenceStart p, r.goto rest (.flowItem true))
    | .flowMappingStart :: rest => some (.mappingStart p, r.goto rest (.flowKey true))
    | t :: rest =>
      if indentless && t = .blockEntry then
        some (.sequenceStart p, r.goto (t :: rest) .indentlessItem)
      else if block && t = .blockSequenceStart then
        some (.sequenceStart p, r.goto rest .blockItem)
      else if block && t = .blockMappingStart then
        some (.mappingStart p, r.goto rest .blockKey)
      -- Properties without a node belong to an empty scalar.
      else if p.anchor.isSome || p.tag.isSome then
        some (.scalar p true "", { r.leave with tokens := t :: rest })
      else none

/-- Read a node that starts with the given tokens, and then expect `after`. -/
def nodeThen (r : EventReader) (block indentless : Bool) (tokens : List Token)
    (after : Expected) : Step :=
  { r with tokens, pending := after :: r.pending }.node block indentless

/-! ## Section 3: Documents -/

/-- The document's own handles, after the version and handle directives at
    its start.  A version may be given once, and each handle too. -/
def directives? : (version : Bool) → (handles : List (String × Tag)) → List Token →
    Option (List (String × Tag) × List Token)
  | version, handles, .version major minor :: rest =>
    if version || major ≠ 1 || (minor ≠ 1 && minor ≠ 2) then none
    else directives? true handles rest
  | version, handles, .handle name expansion :: rest =>
    if (handles.lookup name).isSome then none
    else directives? version (handles ++ [(name, expansion)]) rest
  | _, handles, tokens => some (handles, tokens)

/-- Whether the token belongs to the start of a marked document, or ends the
    text. -/
def isDocumentBoundary : Token → Bool
  | .version _ _ => true
  | .handle _ _ => true
  | .documentStart => true
  | .streamEnd => true
  | _ => false

/-- Read the start of a document, or the end of the text. -/
def document (first : Bool) (r : EventReader) : Step :=
  let tokens := if first then r.tokens else r.tokens.dropWhile (· = .documentEnd)
  match tokens with
  | [] => none
  | .streamEnd :: rest => some (.streamEnd, r.goto rest (.document false))
  | t :: rest =>
    -- Only the first document can go without a mark, and then has no directives.
    if first && !isDocumentBoundary t then
      some (.documentStart, { r with expected := .documentNode false, handles := [] })
    else do
      let (handles, tokens) ← directives? false [] (t :: rest)
      match tokens with
      | .documentStart :: rest =>
        some (.documentStart, { r with tokens := rest, expected := .documentNode true, handles })
      | _ => none

/-- Read the topmost node of a document.  After a mark it may be left out. -/
def documentNode (marked : Bool) (r : EventReader) : Step :=
  match r.tokens with
  | [] => none
  | t :: rest =>
    if marked && (isDocumentBoundary t || t = .documentEnd) then r.empty (t :: rest) .documentEnd
    else r.nodeThen true false (t :: rest) .documentEnd

/-! ## Section 4: Collections -/

/-- Read an item of a sequence in the column of its key, or the end. -/
def indentlessItem (r : EventReader) : Step :=
  match r.tokens with
  | [] => none
  | [.blockEntry] => none
  | .blockEntry :: t :: rest =>
    if [.blockEntry, .key, .value, .blockEnd].contains t then r.empty (t :: rest) .indentlessItem
    else r.nodeThen true false (t :: rest) .indentlessItem
  | _ => some (.sequenceEnd, r.leave)

/-- Read an item of a block sequence, or its end. -/
def blockItem (r : EventReader) : Step :=
  match r.tokens with
  | .blockEntry :: t :: rest =>
    if [.blockEntry, .blockEnd].contains t then r.empty (t :: rest) .blockItem
    else r.nodeThen true false (t :: rest) .blockItem
  | .blockEnd :: rest => some (.sequenceEnd, { r.leave with tokens := rest })
  | _ => none

/-- Read a key of a block mapping, or its end. -/
def blockKey (r : EventReader) : Step :=
  match r.tokens with
  | .key :: t :: rest =>
    if [.key, .value, .blockEnd].contains t then r.empty (t :: rest) .blockValue
    else r.nodeThen true true (t :: rest) .blockValue
  | .blockEnd :: rest => some (.mappingEnd, { r.leave with tokens := rest })
  | _ => none

/-- Read a value of a block mapping. -/
def blockValue (r : EventReader) : Step :=
  match r.tokens with
  | [] => none
  | [.value] => none
  | .value :: t :: rest =>
    if [.key, .value, .blockEnd].contains t then r.empty (t :: rest) .blockKey
    else r.nodeThen true true (t :: rest) .blockKey
  | tokens => r.empty tokens .blockKey

/-- The tokens after the comma that divides items.  There is none before the
    first, and none is needed before the end. -/
def afterComma? (first : Bool) (close : Token) (tokens : List Token) : Option (List Token) :=
  match tokens with
  | [] => none
  | t :: rest =>
    if first || t = close then some (t :: rest) else if t = .flowEntry then some rest else none

/-- Read an item of a sequence in brackets, or its end. -/
def flowItem (first : Bool) (r : EventReader) : Step := do
  match ← afterComma? first .flowSequenceEnd r.tokens with
  | [] => none
  | .flowSequenceEnd :: rest => some (.sequenceEnd, { r.leave with tokens := rest })
  | .key :: rest => some (.mappingStart {}, r.goto rest .pairKey)
  | tokens => r.nodeThen false false tokens (.flowItem false)

/-- Whether a token ends the item of a sequence in brackets. -/
def endsFlowItem (t : Token) : Bool := t = .flowEntry || t = .flowSequenceEnd

/-- Whether a token ends the entry of a mapping in brackets. -/
def endsFlowEntry (t : Token) : Bool := t = .flowEntry || t = .flowMappingEnd

/-- Read the key of a lone pair.  The token in the place of an empty key is
    passed over. -/
def pairKey (r : EventReader) : Step :=
  match r.tokens with
  | [] => none
  | t :: rest =>
    if t = .value || endsFlowItem t then r.empty rest .pairValue
    else r.nodeThen false false (t :: rest) .pairValue

/-- Read the value of a lone pair. -/
def pairValue (r : EventReader) : Step :=
  match r.tokens with
  | [] => none
  | [.value] => none
  | .value :: t :: rest =>
    if endsFlowItem t then r.empty (t :: rest) .pairEnd
    else r.nodeThen false false (t :: rest) .pairEnd
  | tokens => r.empty tokens .pairEnd

/-- End a lone pair. -/
def pairEnd (r : EventReader) : Step :=
  match r.tokens with
  | [] => none
  | tokens => some (.mappingEnd, r.goto tokens (.flowItem false))

/-- Read a key of a mapping in brackets, or its end. -/
def flowKey (first : Bool) (r : EventReader) : Step := do
  match ← afterComma? first .flowMappingEnd r.tokens with
  | [] => none
  | .flowMappingEnd :: rest => some (.mappingEnd, { r.leave with tokens := rest })
  | [.key] => none
  | .key :: t :: rest =>
    if t = .value || endsFlowEntry t then r.empty (t :: rest) (.flowValue false)
    else r.nodeThen false false (t :: rest) (.flowValue false)
  | tokens => r.nodeThen false false tokens (.flowValue true)

/-- Read a value of a mapping in brackets. -/
def flowValue (omitted : Bool) (r : EventReader) : Step :=
  match omitted, r.tokens with
  | _, [] => none
  | false, [.value] => none
  | false, .value :: t :: rest =>
    if endsFlowEntry t then r.empty (t :: rest) (.flowKey false)
    else r.nodeThen false false (t :: rest) (.flowKey false)
  | _, tokens => r.empty tokens (.flowKey false)

/-! ## Section 5: The whole text -/

/-- Read the next event, if the text goes on as it must. -/
def step (r : EventReader) : Step :=
  match r.expected with
  | .document first => r.document first
  | .documentNode marked => r.documentNode marked
  | .documentEnd =>
    match r.tokens with
    | [] => none
    | .documentEnd :: rest => some (.documentEnd, r.goto rest (.document false))
    | tokens => some (.documentEnd, r.goto tokens (.document false))
  | .indentlessItem => r.indentlessItem
  | .blockItem => r.blockItem
  | .blockKey => r.blockKey
  | .blockValue => r.blockValue
  | .flowItem first => r.flowItem first
  | .pairKey => r.pairKey
  | .pairValue => r.pairValue
  | .pairEnd => r.pairEnd
  | .flowKey first => r.flowKey first
  | .flowValue omitted => r.flowValue omitted

/-- Read events until the text ends or is broken, onto those already read,
    newest first. -/
def run : (fuel : Nat) → EventReader → List Event → List Event
  | 0, _, read => read
  | fuel + 1, r, read =>
    match r.step with
    | none => read
    | some (.streamEnd, _) => .streamEnd :: read
    | some (e, next) => run fuel next (e :: read)

end EventReader

/-- The events of a token sequence, in order.  At most three events in a row
    take up no token, which bounds their number. -/
def eventsOf (tokens : List Token) : List Event :=
  (EventReader.run (4 * tokens.length + 8) { tokens } []).reverse

end JavaTree.Yaml
