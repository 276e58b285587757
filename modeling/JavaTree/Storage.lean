import JavaTree.Path

/-! # Storage

    What the program needs of a file system, as a record of operations in any
    monad: the running program takes them from the operating system, and
    `FileTree` gives them as functions on a value. -/

namespace JavaTree

/-! ## Section 1: Failures -/

/-- Why an operation on files fails. -/
inductive StorageError where
  | notFound
  | alreadyExists
  | notDirectory
  | isDirectory
  /-- The contents of a file are no text. -/
  | notText
  /-- Writing is refused. -/
  | readOnly
  /-- Another failure, in the words of the system. -/
  | other (text : String)
  deriving DecidableEq, Repr

/-- The wording of a failure. -/
def StorageError.message : StorageError → String
  | .notFound => "No such file or directory (os error 2)"
  | .alreadyExists => "File exists (os error 17)"
  | .notDirectory => "Not a directory (os error 20)"
  | .isDirectory => "Is a directory (os error 21)"
  | .notText => "stream did not contain valid UTF-8"
  | .readOnly => "read-only"
  | .other text => text

/-! ## Section 2: Operations -/

/-- The operations of a file system. -/
structure Storage (m : Type → Type) where
  /-- Whether there is a file at a path. -/
  isFile : String → m Bool
  /-- Whether there is a directory at a path. -/
  isDirectory : String → m Bool
  /-- The text of a file. -/
  read : String → m (Except StorageError String)
  /-- Give a file a text, whether it exists or not. -/
  write : String → String → m (Except StorageError Unit)
  /-- Make a directory in one that exists. -/
  makeDirectory : String → m (Except StorageError Unit)

namespace Storage

variable {m : Type → Type} [Monad m]

/-- Make a directory, unless there is one at the path. -/
def ensureDirectory (s : Storage m) (path : String) : m (Except StorageError Unit) := do
  match ← s.makeDirectory path with
  | .ok () => return .ok ()
  | .error e => if ← s.isDirectory path then return .ok () else return .error e

/-- Make the first of some directories.  If that one's place is missing, make
    the others first, which are its ancestors from the nearest on.  The empty
    path stands for a directory that is always there. -/
def ensureFirst (s : Storage m) : List String → m (Except StorageError Unit)
  | [] => return .error .notFound
  | path :: above => do
    if path = "" then return .ok ()
    match ← s.ensureDirectory path with
    | .ok () => return .ok ()
    | .error .notFound =>
      -- Only a missing ancestor is worth another try.
      match ← s.ensureFirst above with
      | .ok () => s.ensureDirectory path
      | .error e => return .error e
    | .error e => return .error e

/-- Make a directory and those above it, as far as they are missing. -/
def ensureDirectories (s : Storage m) (path : String) : m (Except StorageError Unit) :=
  s.ensureFirst (path :: Path.above path)

end Storage

end JavaTree
