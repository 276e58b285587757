import JavaTree.Pipeline

/-! # Shelves

    A shelf keeps artifacts by name in memory.  Some names may be refused. -/

namespace JavaTree

/-- Artifacts by name. -/
structure Shelf where
  /-- The artifacts, the latest first. -/
  files : List (String × String) := []
  /-- The names that are refused. -/
  refused : List String := []
  deriving DecidableEq, Repr

namespace Shelf

/-- The text of an artifact. -/
def get? (s : Shelf) (name : String) : Option String := s.files.lookup name

/-- Put an artifact on the shelf, in place of one of the same name. -/
def put (s : Shelf) (name text : String) : Except StorageError Shelf :=
  if name ∈ s.refused then .error .readOnly
  else .ok { s with files := (name, text) :: s.files.filter (·.1 ≠ name) }

/-- A shelf as the place where artifacts go. -/
def sink : Pipeline.Sink (StateM Shelf) := fun name text => do
  match (← get).put name text with
  | .ok s =>
    set s
    return .ok ()
  | .error e => return .error e

end Shelf

end JavaTree
