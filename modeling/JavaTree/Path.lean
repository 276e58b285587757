import JavaTree.Text.Pieces

/-! # Paths

    Slash-separated file paths as text.  A path is read as its sequence of
    components: empty ones (doubled or trailing slashes) and `.` do not
    count.  The file name is the last component unless that is `..`, and the
    extension is what follows the last dot of the file name, provided that
    something stands before the dot. -/

namespace JavaTree.Path

/-! ## Section 1: Components -/

/-- The steps of a path, in order, those that stay in place included. -/
def steps (path : String) : List String :=
  ((Text.pieces '/' path.toList).map String.ofList).filter (· ≠ "")

/-- The components of a path, in order. -/
def components (path : String) : List String := (steps path).filter (· ≠ ".")

/-- Whether the path starts at the root directory. -/
def isAbsolute (path : String) : Bool := path.toList.head? = some '/'

/-- Whether the path ends in a slash, so that only a directory can be meant. -/
def endsInSlash (path : String) : Bool := path.toList.getLast? = some '/'

/-- The path of a name in a directory. -/
def join (directory name : String) : String :=
  if directory = "" || endsInSlash directory then directory ++ name
  else directory ++ "/" ++ name

/-! ## Section 2: File names -/

/-- The last component, unless it is `..`. -/
def fileName? (path : String) : Option String :=
  (components path).getLast?.filter (· ≠ "..")

/-- What follows the last dot of the file name, if something precedes it. -/
def extension? (path : String) : Option String := do
  let name ← fileName? path
  let reversed := name.toList.reverse
  match reversed.dropWhile (· ≠ '.') with
  | _ :: _ :: _ => some (String.ofList (reversed.takeWhile (· ≠ '.')).reverse)
  | _ => none

/-! ## Section 3: Directories above -/

/-- The path with the given components, from the root directory or not. -/
def ofComponents (absolute : Bool) (components : List String) : String :=
  (if absolute then "/" else "") ++ String.intercalate "/" components

/-- All beginnings of a list but the list itself, longest first. -/
def properPrefixes {α : Type} (l : List α) : List (List α) :=
  ((List.range l.length).map fun n => l.take n).reverse

/-- The directories above a path, nearest first. -/
def above (path : String) : List String :=
  (properPrefixes (components path)).map (ofComponents (isAbsolute path))

end JavaTree.Path
