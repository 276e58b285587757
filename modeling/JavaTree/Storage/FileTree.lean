import JavaTree.Storage

/-! # File trees

    A file system as a value: which places hold a file and which a directory.
    A place is given by the names on the way to it from the working
    directory, which is the empty list and always there.

    A path leads to a place step by step; every step needs a directory to
    start from. -/

namespace JavaTree

/-! ## Section 1: Places -/

/-- What is at a place. -/
inductive Entry where
  | file (contents : ByteArray)
  | directory

/-- A place, as the names on the way to it. -/
abbrev Place := List String

/-- A file system. -/
structure FileTree where
  /-- What is where, the working directory left out. -/
  entries : List (Place × Entry) := []

namespace FileTree

/-- What is at a place. -/
def entry? (t : FileTree) (p : Place) : Option Entry :=
  if p = [] then some .directory else t.entries.lookup p

/-- Put something at a place. -/
def put (t : FileTree) (p : Place) (e : Entry) : FileTree :=
  ⟨(p, e) :: t.entries.filter (·.1 ≠ p)⟩

/-- The places in use, and what is there. -/
def toList (t : FileTree) : List (Place × Entry) := t.entries

/-! ## Section 2: Following a path -/

/-- The place one step further. -/
def Place.next (p : Place) (step : String) : Place :=
  if step = "." then p else if step = ".." then p.dropLast else p ++ [step]

/-- The place that some steps lead to.  Nothing needs to be there yet. -/
def follow (t : FileTree) (p : Place) : List String → Except StorageError Place
  | [] => .ok p
  | step :: rest =>
    match t.entry? p with
    | none => .error .notFound
    | some (.file _) => .error .notDirectory
    | some .directory => t.follow (Place.next p step) rest

/-- The place of a path. -/
def place (t : FileTree) (path : String) : Except StorageError Place :=
  if path = "" then .error .notFound else t.follow [] (Path.steps path)

/-- What a path leads to.  A slash at its end asks for a directory. -/
def find (t : FileTree) (path : String) : Except StorageError Entry := do
  let p ← t.place path
  match t.entry? p with
  | none => .error .notFound
  | some .directory => return .directory
  | some e => if Path.endsInSlash path then .error .notDirectory else return e

/-! ## Section 3: Operations -/

/-- Whether a path leads to a file. -/
def isFile (t : FileTree) (path : String) : Bool :=
  match t.find path with
  | .ok (.file _) => true
  | _ => false

/-- Whether a path leads to a directory. -/
def isDirectory (t : FileTree) (path : String) : Bool :=
  match t.find path with
  | .ok .directory => true
  | _ => false

/-- The text of the file at a path. -/
def read (t : FileTree) (path : String) : Except StorageError String := do
  match ← t.find path with
  | .directory => .error .isDirectory
  | .file contents =>
    match String.fromUTF8? contents with
    | some text => return text
    | none => .error .notText

/-- Give the file at a path a text. -/
def write (t : FileTree) (path text : String) : Except StorageError FileTree := do
  let p ← t.place path
  match t.entry? p with
  | some .directory => .error .isDirectory
  | _ => return t.put p (.file text.toUTF8)

/-- Make a directory at a path. -/
def makeDirectory (t : FileTree) (path : String) : Except StorageError FileTree := do
  let p ← t.place path
  match t.entry? p with
  | some _ => .error .alreadyExists
  | none => return t.put p .directory

/-- Go on with a changed tree, or report the failure. -/
def change (f : FileTree → Except StorageError FileTree) :
    StateM FileTree (Except StorageError Unit) := do
  match f (← get) with
  | .ok t =>
    set t
    return .ok ()
  | .error e => return .error e

/-- A file tree as storage. -/
def storage : Storage (StateM FileTree) where
  isFile path := return (← get).isFile path
  isDirectory path := return (← get).isDirectory path
  read path := return (← get).read path
  write path text := change (·.write path text)
  makeDirectory path := change (·.makeDirectory path)

end FileTree

end JavaTree
